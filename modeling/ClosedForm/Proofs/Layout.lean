import ClosedForm.Reader
import Mathlib.Data.List.TakeWhile

/-!
# The layout of a text

Numbers and names are described without the scanner, and a text is a layout of tokens if it is
their texts in order, with blanks in front and between and white space behind, and no word runs
into the next. The scanner finds the tokens of a layout and nothing else: the tokens it reads from
a text start with some tokens, and go on with white space only, exactly if the text is a layout of
these tokens (`layout_iff`).
-/

namespace ClosedForm

open Reader (isEmptyToken)
open Text (isAlphabetic isBlank isWhiteSpace)

/-! ## Classes of characters -/

theorem isAlphabetic_of_isDigit {c : Char} (h : c.isDigit = true) : isAlphabetic c = false := by
  have hdigits : ∀ code ∈ List.range' 48 10, isAlphabetic (Char.ofNat code) = false := by
    decide +kernel
  have hcode : c.toNat ∈ List.range' 48 10 := by
    simp only [Char.isDigit, Bool.and_eq_true, decide_eq_true_eq, ge_iff_le,
      UInt32.le_iff_toNat_le] at h
    exact List.mem_range'_1.mpr ⟨h.1, Nat.lt_succ_of_le h.2⟩
  simpa using hdigits c.toNat hcode

theorem isFigure_of_isDigit {c : Char} (h : c.isDigit = true) : isFigure c = true := by
  simp [isFigure, h]

theorem forall_isFigure_of_isDigit {d : Char} {figures : List Char} (hd : d.isDigit = true)
    (hfigures : ∀ c ∈ figures, isFigure c = true) : ∀ c ∈ d :: figures, isFigure c = true :=
  List.forall_mem_cons.mpr ⟨isFigure_of_isDigit hd, hfigures⟩

theorem isNameChar_eq_false_iff {c : Char} :
    isNameChar c = false ↔ isAlphabetic c = false ∧ isFigure c = false := by
  simp [isNameChar]

/-! ## Words -/

/-- A number as it is written: figures behind a digit, and perhaps an exponent. -/
inductive IsNumeral : List Char → Prop where
  | plain {d : Char} {figures : List Char} (hd : d.isDigit = true)
      (hfigures : ∀ c ∈ figures, isFigure c = true) : IsNumeral (d :: figures)
  | scientific {d mark e : Char} {figures sign more : List Char} (hd : d.isDigit = true)
      (hfigures : ∀ c ∈ figures, isFigure c = true) (hmark : mark = 'e' ∨ mark = 'E')
      (hsign : sign = [] ∨ sign = ['+'] ∨ sign = ['-']) (he : e.isDigit = true)
      (hmore : ∀ c ∈ more, isFigure c = true) :
      IsNumeral (d :: figures ++ mark :: (sign ++ e :: more))

/-- A name as it is written, be it reserved or not. -/
inductive IsIdentifier : List Char → Prop where
  | mk {c : Char} {cs : List Char} (hc : isAlphabetic c = true)
      (hcs : ∀ x ∈ cs, isNameChar x = true) : IsIdentifier (c :: cs)

theorem IsNumeral.ne_nil {cs : List Char} (h : IsNumeral cs) : cs ≠ [] := by
  cases h <;> simp

theorem IsIdentifier.ne_nil {cs : List Char} (h : IsIdentifier cs) : cs ≠ [] := by
  cases h
  simp

/-- Nothing comes next that could continue a word. -/
def EndsWord (rest : List Char) : Prop :=
  ∀ c ∈ rest.head?, isNameChar c = false

theorem endsWord_nil : EndsWord [] := by
  intro c hc
  cases hc

theorem endsWord_cons {c : Char} {rest : List Char} :
    EndsWord (c :: rest) ↔ isNameChar c = false := by
  simp [EndsWord]

namespace Token

/-- The tokens that equations are written with. -/
def IsWellFormed : Token → Prop
  | number text => IsNumeral text.toList
  | name text => IsIdentifier text.toList ∧ ∀ f ∈ Fn.writable, text ≠ f.name
  | function f => f ∈ Fn.writable
  | operator _ | equals | opening | closing => True
  | stray _ | malformed _ => False

/-- Numbers, names and functions must not run into the next word. -/
def isWord : Token → Bool
  | number _ | name _ | function _ => true
  | _ => false

end Token

/-- The texts that a list of tokens can be written as. -/
inductive Layout : List Token → List Char → Prop where
  /-- White space may follow the last token. -/
  | trailing {cs : List Char} (h : ∀ c ∈ cs, isWhiteSpace c = true) : Layout [] cs
  | blank {c : Char} {tokens : List Token} {cs : List Char} (hc : isBlank c = true)
      (h : Layout tokens cs) : Layout tokens (c :: cs)
  | token {t : Token} {tokens : List Token} {cs : List Char} (ht : t.IsWellFormed)
      (hend : t.isWord = true → EndsWord cs) (h : Layout tokens cs) :
      Layout (t :: tokens) (t.text.toList ++ cs)

/-! ## Scanning a word -/

theorem takeWhile_of_endsWith {α : Type} {p : α → Bool} {cs rest : List α}
    (hcs : ∀ c ∈ cs, p c = true) (hrest : ∀ c ∈ rest.head?, p c = false) :
    (cs ++ rest).takeWhile p = cs := by
  rw [List.takeWhile_append_of_pos hcs]
  cases rest with
  | nil => simp
  | cons c rest => simp [hrest c rfl]

theorem dropWhile_of_endsWith {p : Char → Bool} {cs rest : List Char} (hcs : ∀ c ∈ cs, p c = true)
    (hrest : ∀ c ∈ rest.head?, p c = false) : (cs ++ rest).dropWhile p = rest := by
  rw [List.dropWhile_append_of_pos hcs]
  cases rest with
  | nil => rfl
  | cons c rest => simp [hrest c rfl]

theorem head_dropWhile (p : Char → Bool) (cs : List Char) :
    ∀ c ∈ (cs.dropWhile p).head?, p c = false := by
  intro c hc
  have hnot := List.head?_dropWhile_not p cs
  rw [Option.mem_def.mp hc] at hnot
  exact hnot

theorem EndsWord.isFigure {rest : List Char} (h : EndsWord rest) :
    ∀ c ∈ rest.head?, isFigure c = false :=
  fun c hc ↦ (isNameChar_eq_false_iff.mp (h c hc)).2

namespace Token

theorem endNumber_of_endsWord (read : List Char) {rest : List Char} (h : EndsWord rest) :
    endNumber read rest = (number (String.ofList read), rest) := by
  cases rest with
  | nil => rfl
  | cons c rest => simp [endNumber, (isNameChar_eq_false_iff.mp (h c rfl)).1]

theorem scanExponentDigits_of_endsWord (read : List Char) {e : Char} {more rest : List Char}
    (he : e.isDigit = true) (hmore : ∀ c ∈ more, isFigure c = true) (hrest : EndsWord rest) :
    scanExponentDigits read (e :: (more ++ rest)) =
      (number (String.ofList (read ++ e :: more)), rest) := by
  have hfigures := forall_isFigure_of_isDigit he hmore
  have htake := takeWhile_of_endsWith hfigures hrest.isFigure
  have hdrop := dropWhile_of_endsWith hfigures hrest.isFigure
  rw [List.cons_append] at htake hdrop
  simp only [scanExponentDigits, he, if_true, htake, hdrop]
  exact endNumber_of_endsWord _ hrest

theorem scanNumber_of_figures {d : Char} {figures rest : List Char} (hd : d.isDigit = true)
    (hfigures : ∀ c ∈ figures, isFigure c = true) (hrest : EndsWord rest) :
    scanNumber (d :: figures ++ rest) = (number (String.ofList (d :: figures)), rest) := by
  have hall := forall_isFigure_of_isDigit hd hfigures
  rw [scanNumber, takeWhile_of_endsWith hall hrest.isFigure,
    dropWhile_of_endsWith hall hrest.isFigure]
  cases rest with
  | nil => rfl
  | cons c rest =>
    have hletter := (isNameChar_eq_false_iff.mp (hrest c rfl)).1
    have hmark : ¬(c = 'e' ∨ c = 'E') := by
      rintro (rfl | rfl) <;> exact absurd hletter (by decide)
    simp only [hmark, if_false]
    exact endNumber_of_endsWord _ hrest

theorem scanExponent_of_sign (read : List Char) {sign : List Char}
    (hsign : sign = [] ∨ sign = ['+'] ∨ sign = ['-']) {e : Char} (he : e.isDigit = true)
    (rest : List Char) :
    scanExponent read (sign ++ e :: rest) = scanExponentDigits (read ++ sign) (e :: rest) := by
  rcases hsign with rfl | rfl | rfl
  · have hunsigned : ¬(e = '+' ∨ e = '-') := by
      rintro (rfl | rfl) <;> exact absurd he (by decide)
    simp [scanExponent, hunsigned]
  · simp [scanExponent]
  · simp [scanExponent]

theorem scanNumber_of_isNumeral {cs rest : List Char} (hcs : IsNumeral cs) (hrest : EndsWord rest) :
    scanNumber (cs ++ rest) = (number (String.ofList cs), rest) := by
  cases hcs with
  | plain hd hfigures => exact scanNumber_of_figures hd hfigures hrest
  | @scientific d mark e figures sign more hd hfigures hmark hsign he hmore =>
    have hall := forall_isFigure_of_isDigit hd hfigures
    have hmarkEnds : ∀ c ∈ (mark :: (sign ++ e :: more) ++ rest).head?, isFigure c = false := by
      intro c hc
      obtain rfl := Option.some.inj hc
      rcases hmark with rfl | rfl <;> decide
    have hsigned := scanExponent_of_sign (d :: figures ++ [mark]) hsign he (more ++ rest)
    rw [List.append_assoc, scanNumber, takeWhile_of_endsWith hall hmarkEnds,
      dropWhile_of_endsWith hall hmarkEnds]
    simp only [List.cons_append, List.append_assoc, hmark, if_true] at hsigned ⊢
    rw [hsigned, scanExponentDigits_of_endsWord _ he hmore hrest]
    simp

theorem scan_of_isIdentifier {c : Char} {cs rest : List Char} (hcs : IsIdentifier (c :: cs))
    (hrest : EndsWord rest) : scan c (cs ++ rest) = (ofWord (String.ofList (c :: cs)), rest) := by
  obtain ⟨hc, hcs⟩ := hcs
  have hdigit : c.isDigit = false := by
    apply Bool.eq_false_iff.mpr
    intro h
    rw [isAlphabetic_of_isDigit h] at hc
    cases hc
  have hname : ∀ x ∈ c :: cs, isNameChar x = true :=
    List.forall_mem_cons.mpr ⟨by simp [isNameChar, hc], hcs⟩
  simp only [scan, hdigit, hc, if_true, Bool.false_eq_true, if_false]
  rw [← List.cons_append, takeWhile_of_endsWith hname hrest, dropWhile_of_endsWith hname hrest]

theorem ofWord_function {f : Fn} (hf : f ∈ Fn.writable) : ofWord f.name = function f := by
  cases f with
  | sin | cos | tan | log | abs => decide +kernel
  | asin | acos | atan | exp => simp [Fn.writable] at hf

theorem ofName?_eq_none_iff {word : String} :
    Fn.ofName? word = none ↔ ∀ f ∈ Fn.writable, word ≠ f.name := by
  rw [Fn.ofName?, List.find?_eq_none]
  simp only [beq_iff_eq, ne_eq]
  exact forall₂_congr fun f _ ↦ not_congr eq_comm

theorem isIdentifier_name (f : Fn) : IsIdentifier f.name.toList := by
  cases f with
  | sin | cos | tan | log | abs | asin | acos | atan | exp =>
    exact ⟨by decide +kernel, List.all_eq_true.mp (by decide +kernel)⟩

/-- The scanner finds a token where it is written, as long as nothing continues it. -/
theorem scan_of_isWellFormed {t : Token} {c : Char} {cs rest : List Char} (ht : t.IsWellFormed)
    (htext : t.text.toList = c :: cs) (hend : t.isWord = true → EndsWord rest) :
    scan c (cs ++ rest) = (t, rest) := by
  cases t with
  | number text =>
    have hrest := hend rfl
    have hnumeral : IsNumeral (c :: cs) := htext ▸ ht
    have hdigit : c.isDigit = true := by
      cases hnumeral with
      | plain hd => exact hd
      | scientific hd => exact hd
    rw [scan, if_pos hdigit, ← List.cons_append, scanNumber_of_isNumeral hnumeral hrest, ← htext]
    simp [Token.text]
  | name text =>
    obtain ⟨hidentifier, hfree⟩ := ht
    simp only [Token.text] at htext
    rw [htext] at hidentifier
    rw [scan_of_isIdentifier hidentifier (hend rfl), ← htext, String.ofList_toList, ofWord,
      ofName?_eq_none_iff.mpr hfree]
  | function f =>
    have hidentifier := isIdentifier_name f
    simp only [Token.text] at htext
    rw [htext] at hidentifier
    rw [scan_of_isIdentifier hidentifier (hend rfl), ← htext, String.ofList_toList,
      ofWord_function ht]
  | operator op =>
    obtain ⟨rfl, rfl⟩ : op.symbol = c ∧ [] = cs := by simpa [Token.text] using htext
    cases op with
    | plus | minus | times | divide | power => rfl
  | equals | opening | closing =>
    obtain ⟨rfl, rfl⟩ := List.cons.inj htext
    rfl
  | stray c | malformed fault => cases ht

/-! ## What a scanned token is -/

/-- The tokens that are kept for an error only. -/
def isFault : Token → Bool
  | stray _ | malformed _ => true
  | _ => false

/-- A token and the text behind it, as they stand in a layout. -/
def ReadsWell (result : Token × List Char) : Prop :=
  result.1.isFault = false →
    result.1.IsWellFormed ∧ (result.1.isWord = true → EndsWord result.2)

theorem readsWell_endNumber {read rest : List Char} (hread : IsNumeral read)
    (hrest : ∀ c ∈ rest.head?, isFigure c = false) : ReadsWell (endNumber read rest) := by
  have hnumber : (number (String.ofList read)).IsWellFormed := by
    simpa [IsWellFormed] using hread
  intro hfault
  unfold endNumber at hfault ⊢
  split
  · exact ⟨hnumber, fun _ ↦ endsWord_nil⟩
  · next c cs =>
    cases hletter : isAlphabetic c with
    | true => simp [hletter, isFault] at hfault
    | false =>
      have hname : isNameChar c = false := isNameChar_eq_false_iff.mpr ⟨hletter, hrest c rfl⟩
      exact ⟨hnumber, fun _ ↦ endsWord_cons.mpr hname⟩

theorem readsWell_scanExponentDigits {read : List Char} (rest : List Char)
    (hread : ∀ e more, e.isDigit = true → (∀ c ∈ more, isFigure c = true) →
      IsNumeral (read ++ e :: more)) :
    ReadsWell (scanExponentDigits read rest) := by
  cases rest with
  | nil =>
    intro hfault
    cases hfault
  | cons e rest =>
    rw [scanExponentDigits]
    cases he : e.isDigit with
    | false =>
      intro hfault
      cases hfault
    | true =>
      have hfigure := isFigure_of_isDigit he
      rw [if_pos rfl, List.takeWhile_cons_of_pos hfigure]
      have hnumeral := hread e (rest.takeWhile isFigure) he fun c hc ↦ List.mem_takeWhile_imp hc
      exact readsWell_endNumber hnumeral (head_dropWhile _ _)

theorem readsWell_scanExponent {d mark : Char} {figures : List Char} (rest : List Char)
    (hd : d.isDigit = true) (hfigures : ∀ c ∈ figures, isFigure c = true)
    (hmark : mark = 'e' ∨ mark = 'E') :
    ReadsWell (scanExponent (d :: figures ++ [mark]) rest) := by
  have hnumeral (sign : List Char) (hsign : sign = [] ∨ sign = ['+'] ∨ sign = ['-']) (e : Char)
      (more : List Char) (he : e.isDigit = true) (hmore : ∀ c ∈ more, isFigure c = true) :
      IsNumeral (d :: figures ++ [mark] ++ sign ++ e :: more) := by
    have h := IsNumeral.scientific hd hfigures hmark hsign he hmore
    simpa using h
  have hunsigned := hnumeral [] (.inl rfl)
  rw [List.append_nil] at hunsigned
  cases rest with
  | nil => exact readsWell_scanExponentDigits [] hunsigned
  | cons c rest =>
    rw [scanExponent]
    split
    · next hsign =>
      have hsign' : [c] = [] ∨ [c] = ['+'] ∨ [c] = ['-'] := by simpa using hsign
      exact readsWell_scanExponentDigits rest (hnumeral [c] hsign')
    · exact readsWell_scanExponentDigits (c :: rest) hunsigned

theorem readsWell_scanNumber {d : Char} (cs : List Char) (hd : d.isDigit = true) :
    ReadsWell (scanNumber (d :: cs)) := by
  have hfigure := isFigure_of_isDigit hd
  have hfigures : ∀ c ∈ cs.takeWhile isFigure, isFigure c = true :=
    fun c hc ↦ List.mem_takeWhile_imp hc
  have hstop := head_dropWhile isFigure cs
  rw [scanNumber, List.takeWhile_cons_of_pos hfigure, List.dropWhile_cons_of_pos hfigure]
  cases hrest : cs.dropWhile isFigure with
  | nil => exact readsWell_endNumber (.plain hd hfigures) (by simp)
  | cons mark rest =>
    rw [hrest] at hstop
    by_cases hmark : mark = 'e' ∨ mark = 'E'
    · simp only [hmark, if_true]
      exact readsWell_scanExponent rest hd hfigures hmark
    · simp only [hmark, if_false]
      exact readsWell_endNumber (.plain hd hfigures) hstop

theorem isWellFormed_ofWord {word : String} (h : IsIdentifier word.toList) :
    (ofWord word).IsWellFormed := by
  unfold ofWord
  split
  · next f hf => exact List.mem_of_find?_eq_some hf
  · next hnone => exact ⟨h, ofName?_eq_none_iff.mp hnone⟩

theorem isWord_ofSymbol (c : Char) : (ofSymbol c).isWord = false := by
  unfold ofSymbol
  split
  · rfl
  · split
    · rfl
    · split
      · rfl
      · split <;> rfl

theorem isWellFormed_of_isWord_eq_false {t : Token} (hword : t.isWord = false)
    (hfault : t.isFault = false) : t.IsWellFormed := by
  cases t with
  | number text | name text | function f => cases hword
  | operator op | equals | opening | closing => trivial
  | stray c | malformed fault => cases hfault

theorem readsWell_scan (c : Char) (cs : List Char) : ReadsWell (scan c cs) := by
  unfold scan
  split
  · next hd => exact readsWell_scanNumber cs hd
  · split
    · next hc =>
      have hname : isNameChar c = true := by simp [isNameChar, hc]
      have hidentifier : IsIdentifier ((c :: cs).takeWhile isNameChar) := by
        rw [List.takeWhile_cons_of_pos hname]
        exact ⟨hc, fun x hx ↦ List.mem_takeWhile_imp hx⟩
      intro hfault
      constructor
      · apply isWellFormed_ofWord
        rwa [String.toList_ofList]
      · intro hword
        exact head_dropWhile isNameChar (c :: cs)
    · have hword := isWord_ofSymbol c
      intro hfault
      constructor
      · exact isWellFormed_of_isWord_eq_false hword hfault
      · intro h
        rw [hword] at h
        cases h

/-! ## White space -/

theorem scan_of_isWhiteSpace {c : Char} (h : isWhiteSpace c = true) (cs : List Char) :
    scan c cs = (stray c, cs) := by
  have hspaces : ∀ range ∈ Text.whiteSpaceRanges,
      ∀ code ∈ List.range' range.1 (range.2 + 1 - range.1),
        (Char.ofNat code).isDigit = false ∧ isAlphabetic (Char.ofNat code) = false ∧
          ofSymbol (Char.ofNat code) = stray (Char.ofNat code) := by
    decide +kernel
  obtain ⟨range, hrange, hlow, hhigh⟩ := Text.inRanges_iff.mp h
  have hcode : c.toNat ∈ List.range' range.1 (range.2 + 1 - range.1) :=
    List.mem_range'_1.mpr ⟨hlow, by omega⟩
  obtain ⟨hdigit, hletter, hstray⟩ := hspaces range hrange c.toNat hcode
  rw [Char.ofNat_toNat] at hdigit hletter hstray
  simp [scan, hdigit, hletter, hstray]

theorem isEmptyToken_scan_iff (c : Char) (cs : List Char) :
    isEmptyToken (scan c cs).1 = true ↔ isWhiteSpace c = true := by
  constructor
  · intro h
    have htext := text_scan_append c cs
    cases hscan : (scan c cs).1 with
    | stray d =>
      rw [hscan] at h htext
      obtain ⟨rfl, -⟩ : d = c ∧ _ := by simpa [Token.text] using htext
      exact h
    | number text | name text | function f | operator op | equals | opening | closing
    | malformed fault =>
      rw [hscan] at h
      cases h
  · intro h
    rw [scan_of_isWhiteSpace h]
    exact h

end Token

/-! ## Layouts and their tokens -/

theorem lexemesFrom_of_isBlank {c : Char} (hc : isBlank c = true) (start : Nat) (cs : List Char) :
    lexemesFrom start (c :: cs) = lexemesFrom (start + c.utf8Size) cs := by
  rw [lexemesFrom, if_pos hc]

theorem lexemesFrom_of_scan {c : Char} {cs rest : List Char} {t : Token} (hc : isBlank c = false)
    (hscan : Token.scan c cs = (t, rest)) (start : Nat) :
    lexemesFrom start (c :: cs) =
      ⟨t, c, start⟩ :: lexemesFrom (start + Text.byteSize t.text.toList) rest := by
  rw [lexemesFrom, if_neg (by simp [hc]), hscan]

theorem lexemesFrom_cons {c : Char} (hc : isBlank c = false) (start : Nat) (cs : List Char) :
    lexemesFrom start (c :: cs) =
      ⟨(Token.scan c cs).1, c, start⟩ ::
        lexemesFrom (start + Text.byteSize (Token.scan c cs).1.text.toList) (Token.scan c cs).2 :=
  lexemesFrom_of_scan hc (Prod.eta _).symm start

/-- The tokens of a text are white space exactly if its characters are. -/
theorem forall_isEmptyToken_iff (start : Nat) (cs : List Char) :
    (∀ l ∈ lexemesFrom start cs, isEmptyToken l.token = true) ↔
      ∀ c ∈ cs, isWhiteSpace c = true := by
  fun_induction lexemesFrom start cs with
  | case1 start => simp
  | case2 start c cs hblank ih =>
    have hspace := Text.isWhiteSpace_of_isBlank hblank
    rw [ih, List.forall_mem_cons]
    simp [hspace]
  | case3 start c cs hblank read ih =>
    rw [List.forall_mem_cons, ih, Token.isEmptyToken_scan_iff, List.forall_mem_cons]
    apply and_congr_right
    intro hspace
    have hrest : read.2 = cs := congrArg Prod.snd (Token.scan_of_isWhiteSpace hspace cs)
    rw [hrest]

namespace Token

theorem IsWellFormed.isFault {t : Token} (ht : t.IsWellFormed) : t.isFault = false := by
  cases t with
  | stray c | malformed fault => cases ht
  | number text | name text | function f | operator op | equals | opening | closing => rfl

/-- A token is not empty and starts with no blank. -/
theorem IsWellFormed.exists_text {t : Token} (ht : t.IsWellFormed) :
    ∃ c cs, t.text.toList = c :: cs ∧ isBlank c = false := by
  have hne : t.text.toList ≠ [] := by
    cases t with
    | number text => exact IsNumeral.ne_nil ht
    | name text => exact ht.1.ne_nil
    | function f => exact (isIdentifier_name f).ne_nil
    | operator op => simp [text]
    | equals | opening | closing => simp [text]
    | stray c | malformed fault => cases ht
  obtain ⟨c, cs, htext⟩ := List.exists_cons_of_ne_nil hne
  have hscan : scan c (cs ++ []) = (t, []) :=
    scan_of_isWellFormed ht htext fun _ ↦ endsWord_nil
  have hblank : isBlank c = false := by
    apply Bool.eq_false_iff.mpr
    intro h
    rw [scan_of_isWhiteSpace (Text.isWhiteSpace_of_isBlank h)] at hscan
    have hstray : stray c = t := congrArg Prod.fst hscan
    rw [← hstray] at ht
    cases ht
  exact ⟨c, cs, htext, hblank⟩

end Token

namespace Layout

theorem isWellFormed {tokens : List Token} {cs : List Char} (h : Layout tokens cs) :
    ∀ t ∈ tokens, t.IsWellFormed := by
  induction h with
  | trailing h => simp
  | blank hc h ih => exact ih
  | token ht hend h ih => exact List.forall_mem_cons.mpr ⟨ht, ih⟩

theorem exists_trailing {tokens : List Token} {cs : List Char} (h : Layout tokens cs)
    (start : Nat) :
    ∃ trailing, (lexemesFrom start cs).map Lexeme.token = tokens ++ trailing ∧
      ∀ t ∈ trailing, isEmptyToken t = true := by
  induction h generalizing start with
  | @trailing cs h =>
    refine ⟨(lexemesFrom start cs).map Lexeme.token, rfl, ?_⟩
    simpa using (forall_isEmptyToken_iff start cs).mpr h
  | blank hc h ih =>
    rw [lexemesFrom_of_isBlank hc]
    exact ih _
  | @token t tokens cs ht hend h ih =>
    obtain ⟨c, more, htext, hblank⟩ := ht.exists_text
    have hscan := Token.scan_of_isWellFormed ht htext hend
    obtain ⟨trailing, htokens, hempty⟩ := ih (start + Text.byteSize t.text.toList)
    have hread : (lexemesFrom start (t.text.toList ++ cs)).map Lexeme.token =
        t :: (tokens ++ trailing) := by
      rw [htext, List.cons_append, lexemesFrom_of_scan hblank hscan, List.map_cons, htokens]
    exact ⟨trailing, hread, hempty⟩

theorem of_append {start : Nat} {tokens trailing : List Token} {cs : List Char}
    (hread : (lexemesFrom start cs).map Lexeme.token = tokens ++ trailing)
    (htokens : ∀ t ∈ tokens, t.isFault = false)
    (htrailing : ∀ t ∈ trailing, isEmptyToken t = true) : Layout tokens cs := by
  fun_induction lexemesFrom start cs generalizing tokens with
  | case1 start =>
    obtain ⟨rfl, -⟩ := List.append_eq_nil_iff.mp hread.symm
    exact .trailing (by simp)
  | case2 start c cs hblank ih => exact .blank hblank (ih hread htokens)
  | case3 start c cs hblank read =>
    rename_i ih
    rw [List.map_cons] at hread
    cases tokens with
    | nil =>
      rw [List.nil_append] at hread
      have hempty : ∀ l ∈ lexemesFrom start (c :: cs), isEmptyToken l.token = true := by
        rw [lexemesFrom, if_neg hblank]
        simpa [← hread] using htrailing
      exact .trailing ((forall_isEmptyToken_iff start (c :: cs)).mp hempty)
    | cons t tokens =>
      obtain ⟨rfl, hrest⟩ := List.cons.inj hread
      rw [List.forall_mem_cons] at htokens
      obtain ⟨hwell, hend⟩ := Token.readsWell_scan c cs htokens.1
      rw [← Token.text_scan_append c cs]
      exact .token hwell hend (ih hrest htokens.2)

end Layout

/-- The tokens of a text are some tokens and white space exactly if the text is a layout. -/
theorem layout_iff (start : Nat) {tokens : List Token} {cs : List Char} :
    Layout tokens cs ↔
      (∀ t ∈ tokens, t.isFault = false) ∧
        ∃ trailing, (lexemesFrom start cs).map Lexeme.token = tokens ++ trailing ∧
          ∀ t ∈ trailing, isEmptyToken t = true := by
  constructor
  · intro h
    have hfaults : ∀ t ∈ tokens, t.isFault = false := fun t ht ↦ (h.isWellFormed t ht).isFault
    exact ⟨hfaults, h.exists_trailing start⟩
  · rintro ⟨htokens, trailing, hread, htrailing⟩
    exact .of_append hread htokens htrailing

end ClosedForm
