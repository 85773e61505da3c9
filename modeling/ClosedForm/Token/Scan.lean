import ClosedForm.Text.WhiteSpace
import ClosedForm.Token.Basic

/-!
# From text to tokens

`scan` reads the token at the front of a text, always the longest one possible, and `lexemes`
reads them all, skipping the blanks between them. Nothing else is skipped: a token's text and
what is left of the input are the input again (`text_scan_append`).
-/

namespace ClosedForm.Token

open Text

/-- Ends a number that cannot go on: a letter may not follow. -/
def endNumber (read rest : List Char) : Token × List Char :=
  match rest with
  | [] => (number (String.ofList read), [])
  | c :: cs =>
    if isAlphabetic c then
      (malformed (.letterAfterNumber (String.ofList read)), c :: cs)
    else
      (number (String.ofList read), c :: cs)

/-- Reads the digits of an exponent behind its mark and sign; the first one must be there. -/
def scanExponentDigits (read rest : List Char) : Token × List Char :=
  match rest with
  | [] => (malformed (.exponentWithoutDigits (String.ofList read)), [])
  | c :: cs =>
    if c.isDigit then
      endNumber (read ++ (c :: cs).takeWhile isFigure) ((c :: cs).dropWhile isFigure)
    else
      (malformed (.exponentWithoutDigits (String.ofList read)), c :: cs)

/-- Reads an exponent behind its mark, with or without a sign. -/
def scanExponent (read rest : List Char) : Token × List Char :=
  match rest with
  | [] => scanExponentDigits read []
  | c :: cs =>
    if c = '+' ∨ c = '-' then
      scanExponentDigits (read ++ [c]) cs
    else
      scanExponentDigits read (c :: cs)

/-- Reads a number: figures, and at most one exponent. -/
def scanNumber (cs : List Char) : Token × List Char :=
  match cs.dropWhile isFigure with
  | [] => endNumber (cs.takeWhile isFigure) []
  | c :: rest =>
    if c = 'e' ∨ c = 'E' then
      scanExponent (cs.takeWhile isFigure ++ [c]) rest
    else
      endNumber (cs.takeWhile isFigure) (c :: rest)

/-- A word is a function if its name is reserved and a variable otherwise. -/
def ofWord (word : String) : Token :=
  match Fn.ofName? word with
  | some f => function f
  | none => name word

/-- The token of a character that starts neither a number nor a name. -/
def ofSymbol (c : Char) : Token :=
  match BinaryOp.ofSymbol? c with
  | some op => operator op
  | none =>
    if c = '=' then equals
    else if c = '(' then opening
    else if c = ')' then closing
    else stray c

/-- The token at the front of `c :: cs`, and what follows it. -/
def scan (c : Char) (cs : List Char) : Token × List Char :=
  if c.isDigit then
    scanNumber (c :: cs)
  else if isAlphabetic c then
    (ofWord (String.ofList ((c :: cs).takeWhile isNameChar)), (c :: cs).dropWhile isNameChar)
  else
    (ofSymbol c, cs)

/-! ## Nothing is lost -/

theorem text_endNumber_append (read rest : List Char) :
    (endNumber read rest).1.text.toList ++ (endNumber read rest).2 = read ++ rest := by
  unfold endNumber
  split
  · simp [text]
  · split <;> simp [text, NumberFault.read]

theorem text_scanExponentDigits_append (read rest : List Char) :
    (scanExponentDigits read rest).1.text.toList ++ (scanExponentDigits read rest).2 =
      read ++ rest := by
  unfold scanExponentDigits
  split
  · simp [text, NumberFault.read]
  · split
    · rw [text_endNumber_append, List.append_assoc, List.takeWhile_append_dropWhile]
    · simp [text, NumberFault.read]

theorem text_scanExponent_append (read rest : List Char) :
    (scanExponent read rest).1.text.toList ++ (scanExponent read rest).2 = read ++ rest := by
  unfold scanExponent
  split
  · exact text_scanExponentDigits_append read []
  · split <;> simp [text_scanExponentDigits_append]

theorem text_scanNumber_append (cs : List Char) :
    (scanNumber cs).1.text.toList ++ (scanNumber cs).2 = cs := by
  have hsplit := List.takeWhile_append_dropWhile (p := isFigure) (l := cs)
  unfold scanNumber
  split
  · next h =>
    rw [text_endNumber_append, ← h]
    exact hsplit
  · next c rest h =>
    rw [h] at hsplit
    split <;> simp [text_endNumber_append, text_scanExponent_append, hsplit]

theorem text_ofWord (word : String) : (ofWord word).text = word := by
  unfold ofWord
  split
  · next f h =>
    exact Fn.name_of_ofName? h
  · rfl

theorem text_ofSymbol (c : Char) : (ofSymbol c).text = String.singleton c := by
  unfold ofSymbol
  split
  · next op h => rw [text, BinaryOp.ofSymbol?_eq_some_iff.mp h]
  · split
    · next h => subst h; rfl
    · split
      · next h => subst h; rfl
      · split
        · next h => subst h; rfl
        · rfl

theorem text_scan_append (c : Char) (cs : List Char) :
    (scan c cs).1.text.toList ++ (scan c cs).2 = c :: cs := by
  unfold scan
  split
  · exact text_scanNumber_append (c :: cs)
  · split
    · rw [text_ofWord, String.toList_ofList, List.takeWhile_append_dropWhile]
    · simp [text_ofSymbol]

/-! ## A token is not empty -/

theorem endNumber_snd (read rest : List Char) : (endNumber read rest).2 = rest := by
  unfold endNumber
  split
  · rfl
  · split <;> rfl

theorem length_scanExponentDigits_le (read rest : List Char) :
    (scanExponentDigits read rest).2.length ≤ rest.length := by
  unfold scanExponentDigits
  split
  · exact Nat.le_refl _
  · split
    · rw [endNumber_snd]
      exact (List.dropWhile_sublist _).length_le
    · exact Nat.le_refl _

theorem length_scanExponent_le (read rest : List Char) :
    (scanExponent read rest).2.length ≤ rest.length := by
  unfold scanExponent
  split
  · exact length_scanExponentDigits_le read []
  · split
    · exact Nat.le_succ_of_le (length_scanExponentDigits_le _ _)
    · exact length_scanExponentDigits_le _ _

theorem length_scanNumber_le (cs : List Char) :
    (scanNumber cs).2.length ≤ (cs.dropWhile isFigure).length := by
  unfold scanNumber
  split
  · rw [endNumber_snd]
    exact Nat.zero_le _
  · next c rest h =>
    rw [h]
    split
    · exact Nat.le_succ_of_le (length_scanExponent_le _ _)
    · exact Nat.le_of_eq (congrArg List.length (endNumber_snd _ _))

/-- Reading a token makes the text shorter. -/
theorem length_scan_le (c : Char) (cs : List Char) : (scan c cs).2.length ≤ cs.length := by
  unfold scan
  split
  · next h =>
    have hfigure : isFigure c = true := by simp [isFigure, h]
    have hnumber := length_scanNumber_le (c :: cs)
    rw [List.dropWhile_cons_of_pos hfigure] at hnumber
    exact Nat.le_trans hnumber (List.dropWhile_sublist _).length_le
  · split
    · next h =>
      have hname : isNameChar c = true := by simp [isNameChar, h]
      rw [List.dropWhile_cons_of_pos hname]
      exact (List.dropWhile_sublist _).length_le
    · exact Nat.le_refl _

end ClosedForm.Token

namespace ClosedForm

/-- The tokens of a text from left to right, for a text that starts at byte `start`. -/
def lexemesFrom (start : Nat) (cs : List Char) : List Lexeme :=
  match cs with
  | [] => []
  | c :: cs =>
    if Text.isBlank c then
      lexemesFrom (start + c.utf8Size) cs
    else
      let read := Token.scan c cs
      ⟨read.1, c, start⟩ :: lexemesFrom (start + Text.byteSize read.1.text.toList) read.2
termination_by cs.length
decreasing_by
  · exact Nat.lt_succ_self _
  · exact Nat.lt_succ_of_le (Token.length_scan_le c cs)

/-- The tokens of a text with their places in it. -/
def lexemes (text : String) : List Lexeme :=
  lexemesFrom 0 text.toList

end ClosedForm
