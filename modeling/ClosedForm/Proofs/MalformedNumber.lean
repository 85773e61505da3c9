import ClosedForm.Proofs.Layout

/-!
# Numbers that break off

A number is malformed in three ways: a letter other than the mark of an exponent follows its
figures, an exponent has no digit, or a letter follows an exponent. The scanner refuses a number in
these cases and no others (`breaksOff_of_scanNumber`, `scanNumber_of_breaksOff`). What has been read
of a malformed number can always be continued to a number, and which fault it has depends on it and
on the next character alone.
-/

namespace ClosedForm

open Text (isAlphabetic)

theorem isFigure_of_isAlphabetic {c : Char} (h : isAlphabetic c = true) : isFigure c = false := by
  apply Bool.eq_false_iff.mpr
  intro hfigure
  simp only [isFigure, Bool.or_eq_true, beq_iff_eq] at hfigure
  rcases hfigure with (hdigit | rfl) | rfl
  · rw [isAlphabetic_of_isDigit hdigit] at h
    cases h
  · exact absurd h (by decide)
  · exact absurd h (by decide)

theorem isAlphabetic_of_isFigure {c : Char} (h : isFigure c = true) : isAlphabetic c = false := by
  apply Bool.eq_false_iff.mpr
  intro hletter
  rw [isFigure_of_isAlphabetic hletter] at h
  cases h

theorem isBlank_of_isDigit {d : Char} (hd : d.isDigit = true) : Text.isBlank d = false := by
  apply Bool.eq_false_iff.mpr
  intro hblank
  have hspace : d = ' ' ∨ d = '\t' := by simpa [Text.isBlank] using hblank
  rcases hspace with rfl | rfl <;> exact absurd hd (by decide)

/-- What has been read of a number when it breaks off, and the text behind. -/
inductive BreaksOff : NumberFault → List Char → Prop where
  | letter {d c : Char} {figures rest : List Char} (hd : d.isDigit = true)
      (hfigures : ∀ x ∈ figures, isFigure x = true) (hc : isAlphabetic c = true)
      (hmark : ¬(c = 'e' ∨ c = 'E')) :
      BreaksOff (.letterAfterNumber (String.ofList (d :: figures))) (c :: rest)
  | exponent {d mark : Char} {figures sign rest : List Char} (hd : d.isDigit = true)
      (hfigures : ∀ x ∈ figures, isFigure x = true) (hmark : mark = 'e' ∨ mark = 'E')
      (hsign : sign = [] ∨ sign = ['+'] ∨ sign = ['-'])
      (hunsigned : sign = [] → ∀ c ∈ rest.head?, ¬(c = '+' ∨ c = '-'))
      (hrest : ∀ c ∈ rest.head?, c.isDigit = false) :
      BreaksOff (.exponentWithoutDigits (String.ofList (d :: figures ++ mark :: sign))) rest
  | letterAfterExponent {d mark e c : Char} {figures sign more rest : List Char}
      (hd : d.isDigit = true) (hfigures : ∀ x ∈ figures, isFigure x = true)
      (hmark : mark = 'e' ∨ mark = 'E') (hsign : sign = [] ∨ sign = ['+'] ∨ sign = ['-'])
      (he : e.isDigit = true) (hmore : ∀ x ∈ more, isFigure x = true)
      (hc : isAlphabetic c = true) :
      BreaksOff (.letterAfterNumber
        (String.ofList (d :: figures ++ mark :: (sign ++ e :: more)))) (c :: rest)

namespace BreaksOff

/-- One character behind a malformed number decides about it. -/
theorem of_head? {fault : NumberFault} {rest other : List Char} (h : BreaksOff fault rest)
    (hhead : other.head? = rest.head?) : BreaksOff fault other := by
  cases h with
  | letter hd hfigures hc hmark =>
    obtain ⟨more, rfl⟩ := List.head?_eq_some_iff.mp hhead
    exact .letter hd hfigures hc hmark
  | exponent hd hfigures hmark hsign hunsigned hrest =>
    rw [← hhead] at hunsigned hrest
    exact .exponent hd hfigures hmark hsign hunsigned hrest
  | letterAfterExponent hd hfigures hmark hsign he hmore hc =>
    obtain ⟨more, rfl⟩ := List.head?_eq_some_iff.mp hhead
    exact .letterAfterExponent hd hfigures hmark hsign he hmore hc

/-- A digit is all that a malformed number may lack. -/
theorem exists_isNumeral {fault : NumberFault} {rest : List Char} (h : BreaksOff fault rest) :
    ∃ digits, IsNumeral (fault.read.toList ++ digits) := by
  cases h with
  | letter hd hfigures hc hmark =>
    exact ⟨[], by simpa [NumberFault.read] using IsNumeral.plain hd hfigures⟩
  | exponent hd hfigures hmark hsign hunsigned hrest =>
    have hone : '1'.isDigit = true := by decide
    have hnumeral := IsNumeral.scientific hd hfigures hmark hsign hone (List.forall_mem_nil _)
    exact ⟨['1'], by simpa [NumberFault.read] using hnumeral⟩
  | letterAfterExponent hd hfigures hmark hsign he hmore hc =>
    exact ⟨[], by simpa [NumberFault.read] using
      IsNumeral.scientific hd hfigures hmark hsign he hmore⟩

theorem exists_digit {fault : NumberFault} {rest : List Char} (h : BreaksOff fault rest) :
    ∃ d cs, fault.read.toList = d :: cs ∧ d.isDigit = true := by
  cases h with
  | letter hd | exponent hd | letterAfterExponent hd =>
    exact ⟨_, _, String.toList_ofList, hd⟩

end BreaksOff

namespace Token

/-! ## Words and symbols -/

/-- Words, and numbers that break off: what starts with a digit or a letter. -/
def isWordlike : Token → Bool
  | number _ | name _ | function _ | malformed _ => true
  | operator _ | equals | opening | closing | stray _ => false

theorem isWordlike_ofSymbol (c : Char) : (ofSymbol c).isWordlike = false := by
  unfold ofSymbol
  split
  · rfl
  · split
    · rfl
    · split
      · rfl
      · split <;> rfl

theorem isWordlike_endNumber (read rest : List Char) :
    (endNumber read rest).1.isWordlike = true := by
  unfold endNumber
  split
  · rfl
  · split <;> rfl

theorem isWordlike_scanExponentDigits (read rest : List Char) :
    (scanExponentDigits read rest).1.isWordlike = true := by
  unfold scanExponentDigits
  split
  · rfl
  · split
    · exact isWordlike_endNumber _ _
    · rfl

theorem isWordlike_scanNumber (cs : List Char) : (scanNumber cs).1.isWordlike = true := by
  unfold scanNumber
  split
  · exact isWordlike_endNumber _ _
  · split
    · unfold scanExponent
      split
      · exact isWordlike_scanExponentDigits _ _
      · split <;> exact isWordlike_scanExponentDigits _ _
    · exact isWordlike_endNumber _ _

theorem isWordlike_ofWord (word : String) : (ofWord word).isWordlike = true := by
  unfold ofWord
  split <;> rfl

theorem isWordlike_scan (c : Char) (cs : List Char) :
    (scan c cs).1.isWordlike = (c.isDigit || isAlphabetic c) := by
  unfold scan
  cases hdigit : c.isDigit with
  | true => exact isWordlike_scanNumber (c :: cs)
  | false =>
    cases hletter : isAlphabetic c with
    | true => exact isWordlike_ofWord _
    | false => exact isWordlike_ofSymbol c

/-- A symbol is one character, whatever follows. -/
theorem scan_of_symbol {c : Char} (h : (c.isDigit || isAlphabetic c) = false) (cs : List Char) :
    scan c cs = (ofSymbol c, cs) := by
  obtain ⟨hdigit, hletter⟩ := Bool.or_eq_false_iff.mp h
  simp [scan, hdigit, hletter]

/-- Two tokens with the same first character are the same symbol or both start like words. -/
theorem scan_fst_eq_or (c : Char) (cs ds : List Char) :
    (scan c cs).1 = (scan c ds).1 ∨
      (scan c cs).1.isWordlike = true ∧ (scan c ds).1.isWordlike = true := by
  rw [isWordlike_scan, isWordlike_scan]
  cases h : c.isDigit || isAlphabetic c with
  | true => exact .inr ⟨rfl, rfl⟩
  | false =>
    rw [scan_of_symbol h, scan_of_symbol h]
    exact .inl rfl

/-! ## What the scanner refuses -/

theorem endNumber_eq_malformed {read rest after : List Char} {fault : NumberFault}
    (h : endNumber read rest = (malformed fault, after)) :
    fault = .letterAfterNumber (String.ofList read) ∧ after = rest ∧
      ∃ c more, rest = c :: more ∧ isAlphabetic c = true := by
  unfold endNumber at h
  split at h
  · cases h
  · next c more =>
    split at h
    · next hc =>
      cases h
      exact ⟨rfl, rfl, c, more, rfl, hc⟩
    · cases h

theorem breaksOff_of_scanExponentDigits {d mark : Char} {figures sign rest after : List Char}
    {fault : NumberFault} (hd : d.isDigit = true) (hfigures : ∀ x ∈ figures, isFigure x = true)
    (hmark : mark = 'e' ∨ mark = 'E') (hsign : sign = [] ∨ sign = ['+'] ∨ sign = ['-'])
    (hunsigned : sign = [] → ∀ c ∈ rest.head?, ¬(c = '+' ∨ c = '-'))
    (h : scanExponentDigits (d :: figures ++ mark :: sign) rest = (malformed fault, after)) :
    BreaksOff fault after := by
  cases rest with
  | nil =>
    cases h
    exact .exponent hd hfigures hmark hsign hunsigned (by simp)
  | cons e rest =>
    cases he : e.isDigit with
    | false =>
      simp only [scanExponentDigits, he, Bool.false_eq_true, if_false] at h
      cases h
      exact .exponent hd hfigures hmark hsign hunsigned (by simpa using he)
    | true =>
      simp only [scanExponentDigits, he, if_true] at h
      rw [List.takeWhile_cons_of_pos (isFigure_of_isDigit he)] at h
      obtain ⟨rfl, rfl, c, more, hrest, hc⟩ := endNumber_eq_malformed h
      rw [hrest, List.append_assoc, List.cons_append]
      have hmore : ∀ x ∈ rest.takeWhile isFigure, isFigure x = true :=
        fun x hx ↦ List.mem_takeWhile_imp hx
      exact .letterAfterExponent hd hfigures hmark hsign he hmore hc

theorem breaksOff_of_scanExponent {d mark : Char} {figures rest after : List Char}
    {fault : NumberFault} (hd : d.isDigit = true) (hfigures : ∀ x ∈ figures, isFigure x = true)
    (hmark : mark = 'e' ∨ mark = 'E')
    (h : scanExponent (d :: figures ++ [mark]) rest = (malformed fault, after)) :
    BreaksOff fault after := by
  cases rest with
  | nil =>
    rw [scanExponent] at h
    exact breaksOff_of_scanExponentDigits hd hfigures hmark (.inl rfl) (by simp) h
  | cons c rest =>
    rw [scanExponent] at h
    split at h
    · next hsign =>
      have hsign' : [c] = [] ∨ [c] = ['+'] ∨ [c] = ['-'] := by simpa using hsign
      rw [List.append_assoc] at h
      exact breaksOff_of_scanExponentDigits hd hfigures hmark hsign' (by simp) h
    · next hsign =>
      exact breaksOff_of_scanExponentDigits hd hfigures hmark (.inl rfl) (by simpa using hsign) h

theorem breaksOff_of_scanNumber {d : Char} {cs after : List Char} {fault : NumberFault}
    (hd : d.isDigit = true) (h : scanNumber (d :: cs) = (malformed fault, after)) :
    BreaksOff fault after := by
  have hfigure := isFigure_of_isDigit hd
  have hfigures : ∀ x ∈ cs.takeWhile isFigure, isFigure x = true :=
    fun x hx ↦ List.mem_takeWhile_imp hx
  rw [scanNumber, List.takeWhile_cons_of_pos hfigure, List.dropWhile_cons_of_pos hfigure] at h
  split at h
  · obtain ⟨-, -, c, more, hrest, -⟩ := endNumber_eq_malformed h
    cases hrest
  · split at h
    · next hmark => exact breaksOff_of_scanExponent hd hfigures hmark h
    · next hmark =>
      obtain ⟨rfl, rfl, c, more, hrest, hc⟩ := endNumber_eq_malformed h
      obtain ⟨rfl, rfl⟩ := List.cons.inj hrest
      exact .letter hd hfigures hc hmark

/-! ## What breaks off is refused -/

theorem endNumber_of_isAlphabetic (read : List Char) {c : Char} (hc : isAlphabetic c = true)
    (rest : List Char) :
    endNumber read (c :: rest) =
      (malformed (.letterAfterNumber (String.ofList read)), c :: rest) := by
  rw [endNumber, if_pos hc]

theorem scanExponentDigits_of_not_isDigit (read : List Char) {rest : List Char}
    (h : ∀ c ∈ rest.head?, c.isDigit = false) :
    scanExponentDigits read rest =
      (malformed (.exponentWithoutDigits (String.ofList read)), rest) := by
  cases rest with
  | nil => rfl
  | cons c rest => simp [scanExponentDigits, h c rfl]

theorem scanExponentDigits_of_isAlphabetic (read : List Char) {e c : Char} {more rest : List Char}
    (he : e.isDigit = true) (hmore : ∀ x ∈ more, isFigure x = true) (hc : isAlphabetic c = true) :
    scanExponentDigits read (e :: (more ++ c :: rest)) =
      (malformed (.letterAfterNumber (String.ofList (read ++ e :: more))), c :: rest) := by
  have hall := forall_isFigure_of_isDigit he hmore
  have hstop : ∀ x ∈ (c :: rest).head?, isFigure x = false := by
    simpa using isFigure_of_isAlphabetic hc
  have htake := takeWhile_of_endsWith hall hstop
  have hdrop := dropWhile_of_endsWith hall hstop
  rw [List.cons_append] at htake hdrop
  simp only [scanExponentDigits, he, if_true, htake, hdrop]
  exact endNumber_of_isAlphabetic _ hc rest

/-- Behind the figures of a number the scanner goes on with an exponent or ends. -/
theorem scanNumber_of_mark {d mark : Char} {figures : List Char} (hd : d.isDigit = true)
    (hfigures : ∀ x ∈ figures, isFigure x = true) (hmark : mark = 'e' ∨ mark = 'E')
    (rest : List Char) :
    scanNumber (d :: figures ++ mark :: rest) = scanExponent (d :: figures ++ [mark]) rest := by
  have hall := forall_isFigure_of_isDigit hd hfigures
  have hstop : ∀ x ∈ (mark :: rest).head?, isFigure x = false := by
    rcases hmark with rfl | rfl <;> simp [isFigure]
  rw [scanNumber, takeWhile_of_endsWith hall hstop, dropWhile_of_endsWith hall hstop]
  simp only [hmark, if_true]

/-- A sign counts as one wherever it could be read as one. -/
theorem scanExponent_sign_append (read : List Char) {sign rest : List Char}
    (hsign : sign = [] ∨ sign = ['+'] ∨ sign = ['-'])
    (hunsigned : sign = [] → ∀ c ∈ rest.head?, ¬(c = '+' ∨ c = '-')) :
    scanExponent read (sign ++ rest) = scanExponentDigits (read ++ sign) rest := by
  rcases hsign with rfl | rfl | rfl
  · rw [List.nil_append, List.append_nil]
    cases rest with
    | nil => rfl
    | cons c rest => rw [scanExponent, if_neg (hunsigned rfl c rfl)]
  · simp [scanExponent]
  · simp [scanExponent]

theorem scanNumber_of_breaksOff {fault : NumberFault} {rest : List Char}
    (h : BreaksOff fault rest) :
    scanNumber (fault.read.toList ++ rest) = (malformed fault, rest) := by
  cases h with
  | @letter d c figures rest hd hfigures hc hmark =>
    have hall := forall_isFigure_of_isDigit hd hfigures
    have hstop : ∀ x ∈ (c :: rest).head?, isFigure x = false := by
      simpa using isFigure_of_isAlphabetic hc
    rw [NumberFault.read, String.toList_ofList, scanNumber, takeWhile_of_endsWith hall hstop,
      dropWhile_of_endsWith hall hstop]
    simp only [hmark, if_false]
    exact endNumber_of_isAlphabetic _ hc rest
  | @exponent d mark figures sign rest hd hfigures hmark hsign hunsigned hrest =>
    have htext : d :: figures ++ mark :: sign ++ rest = d :: figures ++ mark :: (sign ++ rest) := by
      simp
    have hread : d :: figures ++ [mark] ++ sign = d :: figures ++ mark :: sign := by simp
    rw [NumberFault.read, String.toList_ofList, htext, scanNumber_of_mark hd hfigures hmark,
      scanExponent_sign_append _ hsign hunsigned, scanExponentDigits_of_not_isDigit _ hrest, hread]
  | @letterAfterExponent d mark e c figures sign more rest hd hfigures hmark hsign he hmore hc =>
    have htext : d :: figures ++ mark :: (sign ++ e :: more) ++ c :: rest =
        d :: figures ++ mark :: (sign ++ e :: (more ++ c :: rest)) := by
      simp
    have hread : d :: figures ++ [mark] ++ sign ++ e :: more =
        d :: figures ++ mark :: (sign ++ e :: more) := by
      simp
    rw [NumberFault.read, String.toList_ofList, htext, scanNumber_of_mark hd hfigures hmark,
      scanExponent_of_sign _ hsign he, scanExponentDigits_of_isAlphabetic _ he hmore hc, hread]

/-- Whatever the scanner refuses as a number has broken off. -/
theorem breaksOff_of_scan {c : Char} {cs rest : List Char} {fault : NumberFault}
    (h : scan c cs = (malformed fault, rest)) : BreaksOff fault rest := by
  unfold scan at h
  split at h
  · next hd => exact breaksOff_of_scanNumber hd h
  · split at h
    · have hword := congrArg Prod.fst h
      unfold ofWord at hword
      split at hword <;> cases hword
    · have hsymbol := isWordlike_ofSymbol c
      rw [(Prod.mk.inj h).1] at hsymbol
      cases hsymbol

end Token

/-- A number that breaks off is refused wherever it stands. -/
theorem lexemesFrom_of_breaksOff {fault : NumberFault} {rest : List Char}
    (h : BreaksOff fault rest) (start : Nat) :
    ∃ d, lexemesFrom start (fault.read.toList ++ rest) =
      ⟨.malformed fault, d, start⟩ ::
        lexemesFrom (start + Text.byteSize fault.read.toList) rest := by
  obtain ⟨d, cs, hread, hd⟩ := h.exists_digit
  have hnumber := Token.scanNumber_of_breaksOff h
  rw [hread, List.cons_append] at hnumber
  have hscan : Token.scan d (cs ++ rest) = (.malformed fault, rest) := by
    rw [Token.scan, if_pos hd, hnumber]
  refine ⟨d, ?_⟩
  rw [hread, List.cons_append, lexemesFrom_of_scan (isBlank_of_isDigit hd) hscan, Token.text, hread]

end ClosedForm
