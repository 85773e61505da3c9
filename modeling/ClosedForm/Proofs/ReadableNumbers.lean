import ClosedForm.Evaluation
import ClosedForm.Proofs.RoundTrip

/-!
# Numbers that can be read

Two grammars meet in a number. The scanner takes digits, underscores and points in any order behind
the first digit and behind an exponent, while a float is a mantissa with at most one point and an
exponent of digits only. Reading accepts exactly the texts of floats (`isSome_readFloat?_iff`). So a
number of an expression has a value exactly if it has no underscore, at most one point, and no point
behind the mark of an exponent (`evaluate_number_iff_readable`).
-/

namespace ClosedForm

namespace Decimal

/-! ## The texts of floats -/

/-- Digits, perhaps with a point in front of, between or behind them. -/
inductive IsMantissa : List Char → Prop where
  | whole {digits : List Char} (hne : digits ≠ []) (hdigits : ∀ c ∈ digits, c.isDigit = true) :
      IsMantissa digits
  | point {whole fraction : List Char} (hne : whole ++ fraction ≠ [])
      (hwhole : ∀ c ∈ whole, c.isDigit = true) (hfraction : ∀ c ∈ fraction, c.isDigit = true) :
      IsMantissa (whole ++ '.' :: fraction)

inductive IsExponent : List Char → Prop where
  | absent : IsExponent []
  | present {mark : Char} {sign digits : List Char} (hmark : mark = 'e' ∨ mark = 'E')
      (hsign : sign = [] ∨ sign = ['+'] ∨ sign = ['-']) (hne : digits ≠ [])
      (hdigits : ∀ c ∈ digits, c.isDigit = true) : IsExponent (mark :: (sign ++ digits))

inductive IsMagnitude : List Char → Prop where
  | number {mantissa exponent : List Char} (hmantissa : IsMantissa mantissa)
      (hexponent : IsExponent exponent) : IsMagnitude (mantissa ++ exponent)
  /-- Infinity and what is not a number are written as words, in any mix of cases. -/
  | word {cs : List Char}
      (h : cs.map Char.toLower ∈ ["inf".toList, "infinity".toList, "nan".toList]) : IsMagnitude cs

inductive IsFloat : List Char → Prop where
  | mk {sign magnitude : List Char} (hsign : sign = [] ∨ sign = ['+'] ∨ sign = ['-'])
      (hmagnitude : IsMagnitude magnitude) : IsFloat (sign ++ magnitude)

theorem IsMantissa.forall_mem {mantissa : List Char} (h : IsMantissa mantissa) :
    ∀ c ∈ mantissa, c.isDigit = true ∨ c = '.' := by
  intro c hc
  cases h with
  | whole hne hdigits => exact .inl (hdigits c hc)
  | point hne hwhole hfraction =>
    rcases List.mem_append.mp hc with hc | hc
    · exact .inl (hwhole c hc)
    · rcases List.mem_cons.mp hc with rfl | hc
      · exact .inr rfl
      · exact .inl (hfraction c hc)

theorem IsMantissa.exists_cons {mantissa : List Char} (h : IsMantissa mantissa) :
    ∃ c cs, mantissa = c :: cs := by
  cases h with
  | whole hne hdigits => exact List.exists_cons_of_ne_nil hne
  | point hne hwhole hfraction => exact List.exists_cons_of_ne_nil (by simp)

theorem IsMagnitude.isFloat {cs : List Char} (h : IsMagnitude cs) : IsFloat cs :=
  @IsFloat.mk [] cs (.inl rfl) h

/-! ## Reading accepts them -/

/-- No sign comes next. -/
def Unsigned (cs : List Char) : Prop :=
  ∀ c ∈ cs.head?, ¬(c = '+' ∨ c = '-')

theorem unsigned_of_isDigit {cs : List Char} (hcs : ∀ c ∈ cs, c.isDigit = true) : Unsigned cs := by
  intro c hc hsign
  have hdigit := hcs c (List.mem_of_mem_head? hc)
  rcases hsign with rfl | rfl <;> exact absurd hdigit (by decide)

theorem splitSign_append {sign rest : List Char}
    (hsign : sign = [] ∨ sign = ['+'] ∨ sign = ['-']) (hrest : Unsigned rest) :
    (splitSign (sign ++ rest)).2 = rest := by
  rcases hsign with rfl | rfl | rfl
  · cases rest with
    | nil => rfl
    | cons c cs =>
      obtain ⟨hplus, hminus⟩ := not_or.mp (hrest c rfl)
      simp [splitSign, hplus, hminus]
  · rfl
  · rfl

theorem exists_sign (cs : List Char) :
    ∃ sign, (sign = [] ∨ sign = ['+'] ∨ sign = ['-']) ∧ cs = sign ++ (splitSign cs).2 := by
  cases cs with
  | nil => exact ⟨[], .inl rfl, rfl⟩
  | cons c cs =>
    rw [splitSign]
    split
    · next h => exact ⟨['-'], .inr (.inr rfl), by rw [h]; rfl⟩
    · split
      · next h => exact ⟨['+'], .inr (.inl rfl), by rw [h]; rfl⟩
      · exact ⟨[], .inl rfl, rfl⟩

theorem isSome_readInt?_iff {cs : List Char} :
    (readInt? cs).isSome = true ↔
      ∃ sign digits, (sign = [] ∨ sign = ['+'] ∨ sign = ['-']) ∧ digits ≠ [] ∧
        (∀ c ∈ digits, c.isDigit = true) ∧ cs = sign ++ digits := by
  have hread : (readInt? cs).isSome = true ↔
      (splitSign cs).2 ≠ [] ∧ ∀ c ∈ (splitSign cs).2, c.isDigit = true := by
    rw [readInt?, ← List.all_eq_true]
    split
    simp [*]
  rw [hread]
  constructor
  · rintro ⟨hne, hdigits⟩
    obtain ⟨sign, hsign, hcs⟩ := exists_sign cs
    exact ⟨sign, _, hsign, hne, hdigits, hcs⟩
  · rintro ⟨sign, digits, hsign, hne, hdigits, rfl⟩
    rw [splitSign_append hsign (unsigned_of_isDigit hdigits)]
    exact ⟨hne, hdigits⟩

theorem isSome_readExponent?_iff {cs : List Char} :
    (readExponent? cs).isSome = true ↔ IsExponent cs := by
  constructor
  · intro h
    cases cs with
    | nil => exact .absent
    | cons mark cs =>
      rw [readExponent?] at h
      split at h
      · next hmark =>
        obtain ⟨sign, digits, hsign, hne, hdigits, rfl⟩ := isSome_readInt?_iff.mp h
        exact .present hmark hsign hne hdigits
      · cases h
  · intro h
    cases h with
    | absent => rfl
    | present hmark hsign hne hdigits =>
      rw [readExponent?, if_pos hmark]
      exact isSome_readInt?_iff.mpr ⟨_, _, hsign, hne, hdigits, rfl⟩

/-- The parts into which a text is split decide about it. -/
theorem isSome_ofChars?_iff {cs fraction rest : List Char}
    (hsplit : splitFraction (cs.dropWhile Char.isDigit) = (fraction, rest)) :
    (ofChars? cs).isSome = true ↔
      cs.takeWhile Char.isDigit ++ fraction ≠ [] ∧ IsExponent rest := by
  rw [ofChars?, hsplit, ← isSome_readExponent?_iff]
  by_cases hne : cs.takeWhile Char.isDigit ++ fraction = []
  · simp only [hne, if_pos, ne_eq, not_true, false_and, iff_false]
    simp
  · simp only [hne, if_neg, ne_eq, not_false_iff, true_and]
    cases readExponent? rest <;> simp

theorem isDigit_of_mem_takeWhile {cs : List Char} :
    ∀ c ∈ cs.takeWhile Char.isDigit, c.isDigit = true :=
  fun _ hc ↦ List.mem_takeWhile_imp hc

theorem exists_mantissa_of_ofChars? {cs : List Char} (h : (ofChars? cs).isSome = true) :
    ∃ mantissa exponent, IsMantissa mantissa ∧ IsExponent exponent ∧ cs = mantissa ++ exponent := by
  have hcs := List.takeWhile_append_dropWhile (p := Char.isDigit) (l := cs)
  cases hrest : cs.dropWhile Char.isDigit with
  | nil =>
    have hsplit : splitFraction (cs.dropWhile Char.isDigit) = ([], []) := by rw [hrest]; rfl
    obtain ⟨hne, hexponent⟩ := (isSome_ofChars?_iff hsplit).mp h
    rw [List.append_nil] at hne
    rw [hrest] at hcs
    exact ⟨_, _, .whole hne isDigit_of_mem_takeWhile, hexponent, hcs.symm⟩
  | cons c rest =>
    rw [hrest] at hcs
    by_cases hpoint : c = '.'
    · subst hpoint
      have hsplit : splitFraction (cs.dropWhile Char.isDigit) =
          (rest.takeWhile Char.isDigit, rest.dropWhile Char.isDigit) := by rw [hrest]; rfl
      obtain ⟨hne, hexponent⟩ := (isSome_ofChars?_iff hsplit).mp h
      refine ⟨_, _, .point hne isDigit_of_mem_takeWhile isDigit_of_mem_takeWhile, hexponent, ?_⟩
      rw [List.append_assoc, List.cons_append, List.takeWhile_append_dropWhile, hcs]
    · have hsplit : splitFraction (cs.dropWhile Char.isDigit) = ([], c :: rest) := by
        rw [hrest, splitFraction, if_neg hpoint]
      obtain ⟨hne, hexponent⟩ := (isSome_ofChars?_iff hsplit).mp h
      rw [List.append_nil] at hne
      exact ⟨_, _, .whole hne isDigit_of_mem_takeWhile, hexponent, hcs.symm⟩

theorem IsExponent.head {exponent : List Char} (h : IsExponent exponent) :
    ∀ c ∈ exponent.head?, c.isDigit = false ∧ c ≠ '.' := by
  intro c hc
  cases h with
  | absent => cases hc
  | present hmark hsign hne hdigits =>
    obtain rfl := Option.some.inj hc
    rcases hmark with rfl | rfl <;> decide

theorem splitFraction_of_isExponent {exponent : List Char} (h : IsExponent exponent) :
    splitFraction exponent = ([], exponent) := by
  cases exponent with
  | nil => rfl
  | cons c rest => rw [splitFraction, if_neg (h.head c rfl).2]

theorem isSome_ofChars?_of_isMantissa {mantissa exponent : List Char}
    (hmantissa : IsMantissa mantissa) (hexponent : IsExponent exponent) :
    (ofChars? (mantissa ++ exponent)).isSome = true := by
  have hend : ∀ c ∈ exponent.head?, c.isDigit = false := fun c hc ↦ (hexponent.head c hc).1
  cases hmantissa with
  | whole hne hdigits =>
    have hwhole := takeWhile_of_endsWith hdigits hend
    have hsplit :
        splitFraction ((mantissa ++ exponent).dropWhile Char.isDigit) = ([], exponent) := by
      rw [dropWhile_of_endsWith hdigits hend, splitFraction_of_isExponent hexponent]
    rw [isSome_ofChars?_iff hsplit, hwhole, List.append_nil]
    exact ⟨hne, hexponent⟩
  | @point whole fraction hne hwhole hfraction =>
    have hpoint : ∀ c ∈ ('.' :: (fraction ++ exponent)).head?, c.isDigit = false := by
      intro c hc
      obtain rfl := Option.some.inj hc
      rfl
    have htext : whole ++ '.' :: fraction ++ exponent = whole ++ '.' :: (fraction ++ exponent) := by
      rw [List.append_assoc, List.cons_append]
    have hsplit : splitFraction ((whole ++ '.' :: (fraction ++ exponent)).dropWhile Char.isDigit) =
        (fraction, exponent) := by
      rw [dropWhile_of_endsWith hwhole hpoint, splitFraction, if_pos rfl,
        takeWhile_of_endsWith hfraction hend, dropWhile_of_endsWith hfraction hend]
    rw [htext, isSome_ofChars?_iff hsplit, takeWhile_of_endsWith hwhole hpoint]
    exact ⟨hne, hexponent⟩

theorem isSome_readMagnitude?_iff {cs : List Char} :
    (readMagnitude? cs).isSome = true ↔ IsMagnitude cs := by
  have hword (word : String) :
      String.ofList (cs.map Char.toLower) = word ↔ cs.map Char.toLower = word.toList := by
    rw [← String.toList_inj, String.toList_ofList]
  have hread : (readMagnitude? cs).isSome = true ↔
      cs.map Char.toLower ∈ ["inf".toList, "infinity".toList, "nan".toList] ∨
        (ofChars? cs).isSome = true := by
    simp only [readMagnitude?, hword, List.mem_cons, List.not_mem_nil, or_false, ← or_assoc]
    split
    · next hinfinity => exact iff_of_true rfl (.inl (.inl hinfinity))
    · next hinfinity =>
      split
      · next hnan => exact iff_of_true rfl (.inl (.inr hnan))
      · next hnan => simp only [Option.isSome_map, hinfinity, hnan, false_or]
  rw [hread]
  constructor
  · rintro (h | h)
    · exact .word h
    · obtain ⟨mantissa, exponent, hmantissa, hexponent, rfl⟩ := exists_mantissa_of_ofChars? h
      exact .number hmantissa hexponent
  · intro h
    cases h with
    | number hmantissa hexponent => exact .inr (isSome_ofChars?_of_isMantissa hmantissa hexponent)
    | word h => exact .inl h

theorem IsMagnitude.unsigned {cs : List Char} (h : IsMagnitude cs) : Unsigned cs := by
  intro c hc hsign
  have hnot : c.isDigit = false ∧ c ≠ '.' ∧ c.toLower ≠ 'i' ∧ c.toLower ≠ 'n' := by
    rcases hsign with rfl | rfl <;> decide
  obtain ⟨hdigit, hpoint, hi, hn⟩ := hnot
  cases h with
  | number hmantissa hexponent =>
    obtain ⟨d, ds, rfl⟩ := hmantissa.exists_cons
    obtain rfl : d = c := Option.some.inj hc
    rcases hmantissa.forall_mem d List.mem_cons_self with h | h
    · rw [h] at hdigit
      cases hdigit
    · exact hpoint h
  | word h =>
    obtain ⟨rest, rfl⟩ := List.head?_eq_some_iff.mp hc
    simp [hi, hn] at h

/-- Reading accepts exactly the texts of floats. -/
theorem isSome_readFloat?_iff {text : String} :
    (readFloat? text).isSome = true ↔ IsFloat text.toList := by
  have hread : (readFloat? text).isSome = true ↔ IsMagnitude (splitSign text.toList).2 := by
    rw [readFloat?, ← isSome_readMagnitude?_iff, Option.isSome_map]
  rw [hread]
  constructor
  · intro h
    obtain ⟨sign, hsign, htext⟩ := exists_sign text.toList
    rw [htext]
    exact .mk hsign h
  · intro h
    generalize text.toList = cs at h ⊢
    cases h with
    | mk hsign hmagnitude => rwa [splitSign_append hsign hmagnitude.unsigned]

/-! ## The numbers of expressions -/

/-- What keeps a number of an expression from being read: an underscore, a second point, or a point
behind the mark of an exponent. -/
structure IsReadable (cs : List Char) : Prop where
  underscores : '_' ∉ cs
  points : cs.count '.' ≤ 1
  exponent : cs.Pairwise fun c later ↦ c = 'e' ∨ c = 'E' → later ≠ '.'

theorem IsMantissa.count_le {mantissa : List Char} (h : IsMantissa mantissa) :
    mantissa.count '.' ≤ 1 := by
  have hnone {digits : List Char} (hdigits : ∀ c ∈ digits, c.isDigit = true) :
      digits.count '.' = 0 := by
    apply List.count_eq_zero.mpr
    intro hmem
    exact absurd (hdigits _ hmem) (by decide)
  cases h with
  | whole hne hdigits => rw [hnone hdigits]; exact Nat.zero_le 1
  | point hne hwhole hfraction =>
    rw [List.count_append, List.count_cons_self, hnone hwhole, hnone hfraction]

theorem IsExponent.notMem {exponent : List Char} (h : IsExponent exponent) :
    '_' ∉ exponent ∧ '.' ∉ exponent := by
  cases h with
  | absent => exact ⟨List.not_mem_nil, List.not_mem_nil⟩
  | @present mark sign digits hmark hsign hne hdigits =>
    have hnone (c : Char) (hdigit : c.isDigit = false) : c ∉ digits := by
      intro hmem
      rw [hdigits c hmem] at hdigit
      cases hdigit
    have hunderscore := hnone '_' rfl
    have hpoint := hnone '.' rfl
    rcases hmark with rfl | rfl <;> rcases hsign with rfl | rfl | rfl <;> simp [*]

theorem isReadable_append {mantissa exponent : List Char} (hmantissa : IsMantissa mantissa)
    (hexponent : IsExponent exponent) : IsReadable (mantissa ++ exponent) := by
  have hne {c : Char} (hdigit : c.isDigit = false) (hpoint : c ≠ '.') : c ∉ mantissa := by
    intro hmem
    rcases hmantissa.forall_mem c hmem with h | h
    · rw [h] at hdigit
      cases hdigit
    · exact hpoint h
  obtain ⟨hunderscore, hpoint⟩ := hexponent.notMem
  refine ⟨?_, ?_, ?_⟩
  · rw [List.mem_append, not_or]
    exact ⟨hne rfl (by decide), hunderscore⟩
  · rw [List.count_append, List.count_eq_zero.mpr hpoint, Nat.add_zero]
    exact hmantissa.count_le
  · -- No mark stands in the mantissa, and no point in the exponent.
    have hmark : ∀ c ∈ mantissa, ¬(c = 'e' ∨ c = 'E') := by
      rintro c hc (rfl | rfl)
      · exact hne rfl (by decide) hc
      · exact hne rfl (by decide) hc
    have hlater : ∀ later ∈ exponent, later ≠ '.' := fun later hmem heq ↦ hpoint (heq ▸ hmem)
    apply List.pairwise_append.mpr
    refine ⟨?_, ?_, ?_⟩
    · exact List.pairwise_of_forall_mem_list fun c hc later _ h ↦ absurd h (hmark c hc)
    · exact List.pairwise_of_forall_mem_list fun c _ later hmem _ ↦ hlater later hmem
    · exact fun c _ later hmem _ ↦ hlater later hmem

/-- Figures without underscores are digits and points. -/
theorem isMantissa_of_isFigure {cs : List Char} (hfigures : ∀ c ∈ cs, isFigure c = true)
    (hdigit : ∃ c ∈ cs, c.isDigit = true) (hunderscore : '_' ∉ cs) (hpoints : cs.count '.' ≤ 1) :
    IsMantissa cs := by
  have hcs : ∀ c ∈ cs, c ≠ '.' → c.isDigit = true := by
    intro c hc hne
    have hline : c ≠ '_' := fun heq ↦ hunderscore (heq ▸ hc)
    simpa [isFigure, hne, hline] using hfigures c hc
  by_cases hpoint : '.' ∈ cs
  · obtain ⟨whole, fraction, rfl⟩ := List.append_of_mem hpoint
    rw [List.count_append, List.count_cons_self] at hpoints
    have hwhole : '.' ∉ whole := List.count_eq_zero.mp (by omega)
    have hfraction : '.' ∉ fraction := List.count_eq_zero.mp (by omega)
    refine .point ?_ (fun c hc ↦ hcs c ?_ ?_) (fun c hc ↦ hcs c ?_ ?_)
    · intro hnil
      obtain ⟨rfl, rfl⟩ := List.append_eq_nil_iff.mp hnil
      obtain ⟨c, hc, hc'⟩ := hdigit
      rw [List.mem_singleton.mp hc] at hc'
      cases hc'
    · exact List.mem_append_left _ hc
    · exact fun heq ↦ hwhole (heq ▸ hc)
    · exact List.mem_append_right _ (List.mem_cons_of_mem _ hc)
    · exact fun heq ↦ hfraction (heq ▸ hc)
  · obtain ⟨d, hd, -⟩ := hdigit
    exact .whole (List.ne_nil_of_mem hd) fun c hc ↦ hcs c hc fun heq ↦ hpoint (heq ▸ hc)

theorem toLower_of_isDigit {d : Char} (h : d.isDigit = true) : d.toLower = d := by
  have hcapital : ¬('A'.val ≤ d.val ∧ d.val ≤ 'Z'.val) := by
    have hnine : '9'.val.toNat < 'A'.val.toNat := by decide
    simp only [Char.isDigit, Bool.and_eq_true, decide_eq_true_eq, ge_iff_le,
      UInt32.le_iff_toNat_le] at h ⊢
    omega
  exact dif_neg hcapital

/-- A number that starts with a digit is neither signed nor a word. -/
theorem exists_mantissa_of_isFloat {d : Char} {ds : List Char} (hd : d.isDigit = true)
    (h : IsFloat (d :: ds)) :
    ∃ mantissa exponent, IsMantissa mantissa ∧ IsExponent exponent ∧
      d :: ds = mantissa ++ exponent := by
  have hletter (c : Char) (hc : c.isDigit = false) : d ≠ c := by
    rintro rfl
    rw [hd] at hc
    cases hc
  have hmagnitude : IsMagnitude (d :: ds) := by
    generalize hcs : d :: ds = cs at h
    cases h with
    | mk hsign hmagnitude =>
      rcases hsign with rfl | rfl | rfl
      · exact hmagnitude
      · exact absurd (List.cons.inj hcs).1 (hletter '+' rfl)
      · exact absurd (List.cons.inj hcs).1 (hletter '-' rfl)
  generalize hcs : d :: ds = cs at hmagnitude ⊢
  cases hmagnitude with
  | number hmantissa hexponent => exact ⟨_, _, hmantissa, hexponent, rfl⟩
  | word h =>
    subst hcs
    have hi := hletter 'i' rfl
    have hn := hletter 'n' rfl
    simp [toLower_of_isDigit hd, hi, hn] at h

/-- Of the numbers of expressions, floats are those that can be read. -/
theorem isFloat_iff_isReadable {cs : List Char} (hcs : IsNumeral cs) :
    IsFloat cs ↔ IsReadable cs := by
  constructor
  · intro h
    have hparts : ∃ mantissa exponent, IsMantissa mantissa ∧ IsExponent exponent ∧
        cs = mantissa ++ exponent := by
      cases hcs with
      | plain hd | scientific hd => exact exists_mantissa_of_isFloat hd h
    obtain ⟨mantissa, exponent, hmantissa, hexponent, rfl⟩ := hparts
    exact isReadable_append hmantissa hexponent
  · rintro ⟨hunderscore, hpoints, hexponent⟩
    cases hcs with
    | @plain d figures hd hfigures =>
      have hall := forall_isFigure_of_isDigit hd hfigures
      have hmantissa := isMantissa_of_isFigure hall ⟨d, List.mem_cons_self, hd⟩ hunderscore hpoints
      have hmagnitude := IsMagnitude.number hmantissa .absent
      rw [List.append_nil] at hmagnitude
      exact hmagnitude.isFloat
    | @scientific d mark e figures sign more hd hfigures hmark hsign he hmore =>
      have hall := forall_isFigure_of_isDigit hd hfigures
      rw [List.mem_append, not_or] at hunderscore
      rw [List.count_append] at hpoints
      have hmantissa := isMantissa_of_isFigure hall ⟨d, List.mem_cons_self, hd⟩ hunderscore.1
        (by omega)
      have hdigits : ∀ c ∈ e :: more, c.isDigit = true := by
        rw [List.forall_mem_cons]
        refine ⟨he, fun c hc ↦ ?_⟩
        have hbehind : c ∈ sign ++ e :: more := by simp [hc]
        have hmore' : '_' ∉ more := fun hmem ↦ hunderscore.2 (by simp [hmem])
        have hline : c ≠ '_' := fun heq ↦ hmore' (heq ▸ hc)
        have hpoint : c ≠ '.' :=
          (List.pairwise_cons.mp (List.pairwise_append.mp hexponent).2.1).1 c hbehind hmark
        simpa [isFigure, hline, hpoint] using hmore c hc
      have hpresent := IsExponent.present hmark hsign (List.cons_ne_nil e more) hdigits
      exact IsMagnitude.isFloat (.number hmantissa hpresent)

end Decimal

theorem Expr.evaluate_number_of_isSome {literal : String}
    (h : (Decimal.readFloat? literal).isSome = true) (lookup : String → Option Float) :
    ∃ x, (number literal).evaluate lookup = .ok x := by
  obtain ⟨x, hx⟩ := Option.isSome_iff_exists.mp h
  exact ⟨x, by simp [evaluate, denote, Interpretation.floats, hx]⟩

theorem Expr.evaluate_number_of_isNone {literal : String}
    (h : ¬(Decimal.readFloat? literal).isSome = true) (lookup : String → Option Float) :
    (number literal).evaluate lookup = .error (.invalidNumber literal) := by
  rw [Option.not_isSome_iff_eq_none] at h
  simp [evaluate, denote, Interpretation.floats, h]

/-- What counts as the text of a float is said by a grammar. A number that is read from an equation
is such a text, and so has a value, exactly if it has no underscore, at most one point and no point
behind the mark of its exponent. Any other is reported as a whole. -/
theorem evaluate_number_iff_readable :
    (∀ text, (Decimal.readFloat? text).isSome = true ↔ Decimal.IsFloat text.toList) ∧
    ∀ text literal, Expr.parse text = .ok (.number literal) → ∀ lookup,
      ((∃ x, (Expr.number literal).evaluate lookup = .ok x) ↔
        Decimal.IsReadable literal.toList) ∧
      (¬Decimal.IsReadable literal.toList →
        (Expr.number literal).evaluate lookup = .error (.invalidNumber literal)) := by
  refine ⟨fun text ↦ Decimal.isSome_readFloat?_iff, fun text literal hparse lookup ↦ ?_⟩
  have hnumeral : IsNumeral literal.toList := Expr.isWritable_of_parse hparse
  have hreadable : (Decimal.readFloat? literal).isSome = true ↔
      Decimal.IsReadable literal.toList := by
    rw [Decimal.isSome_readFloat?_iff, Decimal.isFloat_iff_isReadable hnumeral]
  rw [← hreadable]
  refine ⟨⟨fun hvalue ↦ ?_, fun h ↦ Expr.evaluate_number_of_isSome h lookup⟩,
    fun h ↦ Expr.evaluate_number_of_isNone h lookup⟩
  by_contra hnone
  obtain ⟨x, hx⟩ := hvalue
  rw [Expr.evaluate_number_of_isNone hnone lookup] at hx
  cases hx

/-- The number in ` (2.5E+10)` has a value, and the one in `1e2.5` has none. -/
theorem evaluate_number_iff_readable_of_exponents :
    Expr.parse " (2.5E+10)" = .ok (.number "2.5E+10") ∧
      (∃ x, (Expr.number "2.5E+10").evaluate (fun _ ↦ none) = .ok x) ∧
      Expr.parse "1e2.5" = .ok (.number "1e2.5") ∧
      (Expr.number "1e2.5").evaluate (fun _ ↦ none) = .error (.invalidNumber "1e2.5") := by
  have hreadable : Expr.parse " (2.5E+10)" = .ok (.number "2.5E+10") := by decide +kernel
  have hparse : Expr.parse "1e2.5" = .ok (.number "1e2.5") := by decide +kernel
  obtain ⟨-, hliteral⟩ := evaluate_number_iff_readable
  refine ⟨hreadable, (hliteral _ _ hreadable _).1.mpr ⟨?_, ?_, ?_⟩, hparse,
    (hliteral _ _ hparse _).2 fun h ↦ ?_⟩
  · decide
  · decide
  · decide
  · exact absurd h.exponent (by decide)

end ClosedForm
