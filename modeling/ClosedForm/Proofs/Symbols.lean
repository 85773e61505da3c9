import ClosedForm.Proofs.MalformedNumber

/-!
# Symbols in a text

A word, be it one that breaks off, consists of characters that continue words, and every other
character is a token by itself. So a character that is neither a blank nor part of words stands in
a text as often as its token among the tokens (`count_eq_count_tokens`): a text without such tokens
is free of the character, and the parentheses of a text can be counted in its tokens.
-/

namespace ClosedForm

open Text (isAlphabetic isBlank isWhiteSpace)

/-- The characters of words: those that continue names, and the signs of exponents. -/
def isWordChar (c : Char) : Bool :=
  isNameChar c || c == '+' || c == '-'

theorem isWordChar_of_isNameChar {c : Char} (h : isNameChar c = true) : isWordChar c = true := by
  simp [isWordChar, h]

theorem isWordChar_of_isFigure {c : Char} (h : isFigure c = true) : isWordChar c = true :=
  isWordChar_of_isNameChar (by simp [isNameChar, h])

theorem isWordChar_of_isDigit {c : Char} (h : c.isDigit = true) : isWordChar c = true :=
  isWordChar_of_isFigure (isFigure_of_isDigit h)

theorem IsNumeral.isWordChar {cs : List Char} (h : IsNumeral cs) :
    ∀ c ∈ cs, isWordChar c = true := by
  cases h with
  | plain hd hfigures =>
    exact List.forall_mem_cons.mpr
      ⟨isWordChar_of_isDigit hd, fun c hc ↦ isWordChar_of_isFigure (hfigures c hc)⟩
  | @scientific d mark e figures sign more hd hfigures hmark hsign he hmore =>
    have hmark' : ClosedForm.isWordChar mark = true := by
      rcases hmark with rfl | rfl <;> decide
    have hsign' : ∀ c ∈ sign, ClosedForm.isWordChar c = true := by
      rcases hsign with rfl | rfl | rfl <;> simp [ClosedForm.isWordChar]
    simp only [List.forall_mem_append, List.forall_mem_cons]
    exact ⟨⟨isWordChar_of_isDigit hd, fun c hc ↦ isWordChar_of_isFigure (hfigures c hc)⟩, hmark',
      hsign', isWordChar_of_isDigit he, fun c hc ↦ isWordChar_of_isFigure (hmore c hc)⟩

theorem IsIdentifier.isWordChar {cs : List Char} (h : IsIdentifier cs) :
    ∀ c ∈ cs, isWordChar c = true := by
  obtain ⟨hc, hcs⟩ := h
  have hname : isNameChar _ = true := Bool.or_eq_true_iff.mpr (.inl hc)
  exact List.forall_mem_cons.mpr
    ⟨isWordChar_of_isNameChar hname, fun c hc ↦ isWordChar_of_isNameChar (hcs c hc)⟩

theorem BreaksOff.isWordChar {fault : NumberFault} {rest : List Char} (h : BreaksOff fault rest) :
    ∀ c ∈ fault.read.toList, isWordChar c = true := by
  obtain ⟨digits, hnumeral⟩ := h.exists_isNumeral
  exact fun c hc ↦ hnumeral.isWordChar c (List.mem_append_left digits hc)

/-- White space starts no word. -/
theorem isDigit_or_isAlphabetic_of_isWhiteSpace {c : Char} (h : isWhiteSpace c = true) :
    (c.isDigit || isAlphabetic c) = false := by
  rw [← Token.isWordlike_scan c [], Token.scan_of_isWhiteSpace h]
  rfl

theorem isWordChar_of_isWhiteSpace {c : Char} (h : isWhiteSpace c = true) :
    isWordChar c = false := by
  have hne (other : Char) (hother : isWhiteSpace other = false) : c ≠ other := by
    rintro rfl
    rw [h] at hother
    cases hother
  obtain ⟨hdigit, hletter⟩ := Bool.or_eq_false_iff.mp (isDigit_or_isAlphabetic_of_isWhiteSpace h)
  simp [isWordChar, isNameChar, isFigure, hdigit, hletter, hne '_' rfl, hne '.' rfl, hne '+' rfl,
    hne '-' rfl]

namespace Token

/-- A word that is read from a text consists of the characters of words. -/
theorem isWordChar_of_isWordlike {c : Char} {cs : List Char}
    (h : (scan c cs).1.isWordlike = true) :
    ∀ x ∈ (scan c cs).1.text.toList, isWordChar x = true := by
  have hwell := readsWell_scan c cs
  have hbroken := fun fault rest ↦ @breaksOff_of_scan c cs rest fault
  cases hscan : scan c cs with
  | mk t rest =>
    rw [hscan] at h hwell
    cases t with
    | number text =>
      have hnumeral : IsNumeral text.toList := (hwell rfl).1
      exact hnumeral.isWordChar
    | name text => exact (hwell rfl).1.1.isWordChar
    | function f => exact (isIdentifier_name f).isWordChar
    | malformed fault => exact (hbroken fault rest hscan).isWordChar
    | operator op | equals | opening | closing | stray x => cases h

theorem ofSymbol_injective : Function.Injective ofSymbol := by
  intro c d h
  have htext := congrArg text h
  rw [text_ofSymbol, text_ofSymbol] at htext
  simpa using congrArg String.toList htext

theorem ofSymbol_of_isWhiteSpace {c : Char} (h : isWhiteSpace c = true) : ofSymbol c = stray c := by
  have hscan := scan_of_isWhiteSpace h []
  rw [scan_of_symbol (isDigit_or_isAlphabetic_of_isWhiteSpace h)] at hscan
  exact (Prod.mk.inj hscan).1

/-- A token of one character is read from that character. -/
theorem eq_of_text_scan {c x : Char} {cs : List Char}
    (h : (scan c cs).1.text = String.singleton x) : c = x ∧ (scan c cs).2 = cs := by
  have htext := text_scan_append c cs
  rw [h, String.toList_singleton, List.singleton_append] at htext
  exact ⟨(List.cons.inj htext).1.symm, (List.cons.inj htext).2⟩

/-- A character that stands in no word is in the text of its own token only. -/
theorem count_text_scan {x : Char} (hx : isWordChar x = false) (c : Char) (cs : List Char) :
    (scan c cs).1.text.toList.count x = if (scan c cs).1 = ofSymbol x then 1 else 0 := by
  cases hword : (scan c cs).1.isWordlike with
  | true =>
    have hnotMem : x ∉ (scan c cs).1.text.toList := by
      intro hmem
      rw [isWordChar_of_isWordlike hword x hmem] at hx
      cases hx
    have hne : (scan c cs).1 ≠ ofSymbol x := by
      intro heq
      rw [heq, isWordlike_ofSymbol] at hword
      cases hword
    rw [List.count_eq_zero_of_not_mem hnotMem, if_neg hne]
  | false =>
    rw [isWordlike_scan] at hword
    rw [scan_of_symbol hword, text_ofSymbol, String.toList_singleton, List.count_singleton]
    simp [ofSymbol_injective.eq_iff]

end Token

/-- A character that stands in no word is read as its symbol wherever it stands. -/
theorem count_eq_count_tokens {x : Char} (hblank : isBlank x = false) (hword : isWordChar x = false)
    (start : Nat) (cs : List Char) :
    cs.count x = ((lexemesFrom start cs).map Lexeme.token).count (Token.ofSymbol x) := by
  fun_induction lexemesFrom start cs with
  | case1 start => rfl
  | case2 start c cs hc ih =>
    have hne : c ≠ x := by
      rintro rfl
      rw [hc] at hblank
      cases hblank
    rw [List.count_cons_of_ne hne, ih]
  | case3 start c cs hc read =>
    rename_i ih
    calc
      (c :: cs).count x = (read.1.text.toList ++ read.2).count x := by
        rw [Token.text_scan_append]
      _ = (if read.1 = Token.ofSymbol x then 1 else 0) + read.2.count x := by
        rw [List.count_append, Token.count_text_scan hword]
      _ = _ := by
        rw [ih, List.map_cons, List.count_cons, Nat.add_comm]
        simp

theorem notMem_of_notMem_tokens {x : Char} (hblank : isBlank x = false)
    (hword : isWordChar x = false) {start : Nat} {cs : List Char}
    (h : Token.ofSymbol x ∉ (lexemesFrom start cs).map Lexeme.token) : x ∉ cs := by
  rw [← List.count_eq_zero, ← count_eq_count_tokens hblank hword] at h
  exact List.count_eq_zero.mp h

/-- White space that is no blank is read as a token. -/
theorem isBlank_of_isFault_eq_false {start : Nat} {cs : List Char}
    (h : ∀ l ∈ lexemesFrom start cs, l.token.isFault = false) :
    ∀ c ∈ cs, isWhiteSpace c = true → isBlank c = true := by
  intro c hc hspace
  by_contra hblank
  have hmem : Token.stray c ∈ (lexemesFrom start cs).map Lexeme.token := by
    by_contra hnone
    rw [← Token.ofSymbol_of_isWhiteSpace hspace] at hnone
    have hword := isWordChar_of_isWhiteSpace hspace
    exact notMem_of_notMem_tokens (Bool.eq_false_iff.mpr hblank) hword hnone hc
  obtain ⟨l, hl, htoken⟩ := List.mem_map.mp hmem
  have hfault := h l hl
  rw [htoken] at hfault
  cases hfault

end ClosedForm
