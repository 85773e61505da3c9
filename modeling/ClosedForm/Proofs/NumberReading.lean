import ClosedForm.Proofs.Suspension
import ClosedForm.Text.Cursor

/-!
# Reading a number character by character

A cursor can go past a word in a loop that always looks at one character further: `Cursor.wordStep`
is one round of it, `Cursor.wordEnd` the loop, and `Cursor.word` returns what was passed. In a
number the loop ends like the scanner: behind the number (`Cursor.word_of_isNumeral`), or where it
breaks off (`Cursor.word_of_breaksOff`).

What becomes of a text that starts with a digit depends on the figures that it starts with and on
what follows them (`reads_number_exactly`), and it is the same for the cursor, for the scanner and
for the reader. What is read is the longest number there (`IsNumeral.isPrefix`).
-/

namespace ClosedForm

open Text (isAlphabetic endOfInput Cursor byteSize)

theorem isNameChar_of_isFigure {c : Char} (h : isFigure c = true) : isNameChar c = true := by
  simp [isNameChar, h]

namespace Text.Cursor

/-! ## Step by step -/

/-- Goes past the next character. -/
def advance (c : Cursor) : Except SyntaxError Cursor :=
  c.consume.map Prod.snd

/-- Goes past a sign, if one is next. -/
def skipSign (c : Cursor) : Except SyntaxError Cursor :=
  if c.peek = '+' ∨ c.peek = '-' then c.advance else .ok c

/-- What was passed since an earlier cursor. -/
def since (c start : Cursor) : String :=
  (c.consumedSince? start.position).getD ""

/-- The error that a fault at the cursor leads to. -/
def errorAt (c : Cursor) (cause : SyntaxError.Cause) : SyntaxError :=
  ⟨c.text, cause, c.position⟩

/-- Goes past one character of a word that starts at `start` and, in a number whose exponent has not
been seen, past the mark and the sign of an exponent. Tells whether the exponent has been seen. -/
def wordStep (start : Cursor) (numeric seen : Bool) (c : Cursor) :
    Except SyntaxError (Bool × Cursor) := do
  let next ← c.advance
  if numeric && !seen && (next.peek == 'e' || next.peek == 'E') then
    let mark ← next.advance
    let exponent ← mark.skipSign
    if exponent.peek.isDigit then
      return (true, exponent)
    else
      throw (exponent.errorAt (.malformedExponent (exponent.since start)))
  else if numeric && isAlphabetic next.peek then
    throw (next.errorAt (.malformedNumber (next.since start)))
  else
    return (seen, next)

theorem length_of_advance {c next : Cursor} (h : c.advance = .ok next) :
    next.ahead.length < c.ahead.length := by
  obtain ⟨behind, _ | ⟨x, ahead⟩⟩ := c
  · cases h
  · cases h
    exact Nat.lt_succ_self _

theorem length_of_skipSign {c next : Cursor} (h : c.skipSign = .ok next) :
    next.ahead.length ≤ c.ahead.length := by
  unfold skipSign at h
  split at h
  · exact Nat.le_of_lt (length_of_advance h)
  · cases h
    exact Nat.le_refl _

theorem length_of_wordStep {start c next : Cursor} {numeric seen seen' : Bool}
    (h : wordStep start numeric seen c = .ok (seen', next)) :
    next.ahead.length < c.ahead.length := by
  obtain ⟨first, hfirst, h⟩ := bind_eq_ok_iff.mp h
  have hshorter := length_of_advance hfirst
  split at h
  · obtain ⟨mark, hmark, h⟩ := bind_eq_ok_iff.mp h
    obtain ⟨exponent, hexponent, h⟩ := bind_eq_ok_iff.mp h
    have hmarkShorter := length_of_advance hmark
    have hexponentShorter := length_of_skipSign hexponent
    split at h
    · cases h
      omega
    · cases h
  · split at h
    · cases h
    · cases h
      exact hshorter

/-- Goes on as long as a character of words is next. -/
def wordEnd (start : Cursor) (numeric seen : Bool) (c : Cursor) : Except SyntaxError Cursor :=
  if isNameChar c.peek then
    match h : wordStep start numeric seen c with
    | .ok (seen', next) =>
      have := length_of_wordStep h
      wordEnd start numeric seen' next
    | .error e => .error e
  else
    .ok c
termination_by c.ahead.length

/-- Reads a word, which is a number if it starts with a digit. -/
def word (c : Cursor) : Except SyntaxError (String × Cursor) := do
  let last ← wordEnd c c.peek.isDigit false c
  return (last.since c, last)

section

variable {start next : Cursor} {numeric seen seen' : Bool} {behind rest : List Char} {x : Char}

theorem wordEnd_of_ok (hx : isNameChar x = true)
    (h : wordStep start numeric seen ⟨behind, x :: rest⟩ = .ok (seen', next)) :
    wordEnd start numeric seen ⟨behind, x :: rest⟩ = wordEnd start numeric seen' next := by
  have hnext : isNameChar (peek ⟨behind, x :: rest⟩) = true := hx
  rw [wordEnd, if_pos hnext]
  split
  · next h' =>
    rw [h] at h'
    cases h'
    rfl
  · next h' =>
    rw [h] at h'
    cases h'

theorem wordEnd_of_error {error : SyntaxError} (hx : isNameChar x = true)
    (h : wordStep start numeric seen ⟨behind, x :: rest⟩ = .error error) :
    wordEnd start numeric seen ⟨behind, x :: rest⟩ = .error error := by
  have hnext : isNameChar (peek ⟨behind, x :: rest⟩) = true := hx
  rw [wordEnd, if_pos hnext]
  split
  · next h' =>
    rw [h] at h'
    cases h'
  · next h' =>
    rw [h] at h'
    cases h'
    rfl

end

section

variable {start : Cursor} {seen : Bool} {behind ahead : List Char}

/-- The end of the text is in no class of characters that words are made of. -/
theorem peek_eq_false {p : Char → Bool} (hend : p endOfInput = false)
    (h : ∀ c ∈ ahead.head?, p c = false) : p (peek ⟨behind, ahead⟩) = false := by
  cases ahead with
  | nil => exact hend
  | cons c cs => exact h c rfl

theorem since_reverse_append (passed rest : List Char) :
    since ⟨passed.reverse ++ behind, rest⟩ ⟨behind, ahead⟩ = String.ofList passed := by
  have hbehind : (passed.reverse ++ behind).reverse = behind.reverse ++ passed := by simp
  have hsplit := splitAtByte?_byteSize behind.reverse passed
  rw [byteSize_reverse] at hsplit
  rw [since, consumedSince?, hbehind, position, hsplit]
  rfl

theorem skipSign_sign_append {sign rest : List Char}
    (hsign : sign = [] ∨ sign = ['+'] ∨ sign = ['-'])
    (hunsigned : sign = [] → ∀ c ∈ rest.head?, ¬(c = '+' ∨ c = '-')) :
    skipSign ⟨behind, sign ++ rest⟩ = .ok ⟨sign.reverse ++ behind, rest⟩ := by
  rcases hsign with rfl | rfl | rfl
  · cases rest with
    | nil => rfl
    | cons c rest => exact if_neg (hunsigned rfl c rfl)
  · rfl
  · rfl

/-! ## One step in a number -/

theorem advance_cons (x : Char) (rest : List Char) :
    advance ⟨behind, x :: rest⟩ = .ok ⟨x :: behind, rest⟩ := rfl

theorem peek_cons (x : Char) (rest : List Char) : peek ⟨behind, x :: rest⟩ = x := rfl

theorem wordStep_of_not_isAlphabetic {x : Char} {rest : List Char}
    (hrest : ∀ c ∈ rest.head?, isAlphabetic c = false) :
    wordStep start true seen ⟨behind, x :: rest⟩ = .ok (seen, ⟨x :: behind, rest⟩) := by
  have hletter : isAlphabetic (peek ⟨x :: behind, rest⟩) = false := peek_eq_false rfl hrest
  have hmark : ¬(peek ⟨x :: behind, rest⟩ = 'e' ∨ peek ⟨x :: behind, rest⟩ = 'E') := by
    rintro (h | h) <;> rw [h] at hletter <;> exact absurd hletter (by decide)
  rw [wordStep, advance_cons]
  simp [bind, Except.bind, pure, Except.pure, not_or.mp hmark, hletter]

theorem wordStep_of_letter {x c : Char} {rest : List Char} (hc : isAlphabetic c = true)
    (hmark : seen = true ∨ ¬(c = 'e' ∨ c = 'E')) :
    wordStep start true seen ⟨behind, x :: c :: rest⟩ =
      .error (errorAt ⟨x :: behind, c :: rest⟩
        (.malformedNumber (since ⟨x :: behind, c :: rest⟩ start))) := by
  have hseen : (!seen && (c == 'e' || c == 'E')) = false := by
    rcases hmark with rfl | h
    · rfl
    · simp [not_or.mp h]
  rw [wordStep, advance_cons]
  simp [bind, Except.bind, throw, throwThe, MonadExceptOf.throw, peek_cons, hseen, hc]

/-- Behind the mark and the sign of an exponent a digit decides. -/
theorem wordStep_of_mark {x mark : Char} {sign rest : List Char} (hmark : mark = 'e' ∨ mark = 'E')
    (hsign : sign = [] ∨ sign = ['+'] ∨ sign = ['-'])
    (hunsigned : sign = [] → ∀ c ∈ rest.head?, ¬(c = '+' ∨ c = '-')) :
    wordStep start true false ⟨behind, x :: mark :: (sign ++ rest)⟩ =
      if (peek ⟨sign.reverse ++ mark :: x :: behind, rest⟩).isDigit then
        .ok (true, ⟨sign.reverse ++ mark :: x :: behind, rest⟩)
      else
        .error (errorAt ⟨sign.reverse ++ mark :: x :: behind, rest⟩
          (.malformedExponent (since ⟨sign.reverse ++ mark :: x :: behind, rest⟩ start))) := by
  rw [wordStep, advance_cons]
  simp [bind, Except.bind, throw, throwThe, MonadExceptOf.throw, pure, Except.pure, peek_cons,
    hmark, advance_cons, skipSign_sign_append hsign hunsigned]

theorem wordEnd_of_not_isNameChar {rest : List Char} (hrest : EndsWord rest) (numeric : Bool) :
    wordEnd start numeric seen ⟨behind, rest⟩ = .ok ⟨behind, rest⟩ := by
  have hnext : isNameChar (peek ⟨behind, rest⟩) = false := peek_eq_false rfl hrest
  rw [wordEnd, if_neg (by simp [hnext])]

/-! ## A run of figures -/

/-- Figures are passed one by one as long as another one is next. -/
theorem wordEnd_figures_append {figures : List Char} {x : Char} {rest : List Char}
    (hfigures : ∀ c ∈ figures, isFigure c = true) (hx : isFigure x = true) :
    wordEnd start true seen ⟨behind, figures ++ x :: rest⟩ =
      wordEnd start true seen ⟨figures.reverse ++ behind, x :: rest⟩ := by
  induction figures generalizing behind with
  | nil => rfl
  | cons c figures ih =>
    rw [List.forall_mem_cons] at hfigures
    have hname := isNameChar_of_isFigure hfigures.1
    have hnext : ∀ y ∈ (figures ++ x :: rest).head?, isAlphabetic y = false := by
      intro y hy
      have hfigure : isFigure y = true := by
        cases figures with
        | nil => rwa [← Option.some.inj hy]
        | cons d figures =>
          rw [← Option.some.inj hy]
          exact hfigures.2 d List.mem_cons_self
      exact isAlphabetic_of_isFigure hfigure
    rw [List.cons_append, wordEnd_of_ok hname (wordStep_of_not_isAlphabetic hnext), ih hfigures.2]
    simp

variable {run rest : List Char}

theorem exists_last_figure (hne : run ≠ []) (hrun : ∀ c ∈ run, isFigure c = true) :
    ∃ figures x, run = figures ++ [x] ∧ (∀ c ∈ figures, isFigure c = true) ∧ isFigure x = true := by
  obtain ⟨figures, x, rfl⟩ := (List.eq_nil_or_concat run).resolve_left hne
  rw [List.concat_eq_append] at hrun ⊢
  rw [List.forall_mem_append, List.forall_mem_singleton] at hrun
  exact ⟨figures, x, rfl, hrun⟩

theorem wordEnd_of_endsWord (hne : run ≠ []) (hrun : ∀ c ∈ run, isFigure c = true)
    (hrest : EndsWord rest) :
    wordEnd start true seen ⟨behind, run ++ rest⟩ = .ok ⟨run.reverse ++ behind, rest⟩ := by
  obtain ⟨figures, x, rfl, hfigures, hx⟩ := exists_last_figure hne hrun
  have hstep : wordStep start true seen ⟨figures.reverse ++ behind, x :: rest⟩ =
      .ok (seen, ⟨x :: (figures.reverse ++ behind), rest⟩) :=
    wordStep_of_not_isAlphabetic fun c hc ↦ (isNameChar_eq_false_iff.mp (hrest c hc)).1
  rw [List.append_assoc, List.singleton_append, wordEnd_figures_append hfigures hx,
    wordEnd_of_ok (isNameChar_of_isFigure hx) hstep, wordEnd_of_not_isNameChar hrest]
  simp

theorem wordEnd_of_letter {c : Char} (hne : run ≠ []) (hrun : ∀ c ∈ run, isFigure c = true)
    (hc : isAlphabetic c = true) (hmark : seen = true ∨ ¬(c = 'e' ∨ c = 'E')) :
    wordEnd start true seen ⟨behind, run ++ c :: rest⟩ =
      .error (errorAt ⟨run.reverse ++ behind, c :: rest⟩
        (.malformedNumber (since ⟨run.reverse ++ behind, c :: rest⟩ start))) := by
  obtain ⟨figures, x, rfl, hfigures, hx⟩ := exists_last_figure hne hrun
  have hstep := @wordStep_of_letter start seen (figures.reverse ++ behind) x c rest hc hmark
  rw [List.append_assoc, List.singleton_append, wordEnd_figures_append hfigures hx,
    wordEnd_of_error (isNameChar_of_isFigure hx) hstep]
  simp

variable {mark : Char} {sign : List Char}

theorem wordEnd_of_exponent {e : Char} (hne : run ≠ []) (hrun : ∀ c ∈ run, isFigure c = true)
    (hmark : mark = 'e' ∨ mark = 'E') (hsign : sign = [] ∨ sign = ['+'] ∨ sign = ['-'])
    (he : e.isDigit = true) :
    wordEnd start true false ⟨behind, run ++ mark :: (sign ++ e :: rest)⟩ =
      wordEnd start true true ⟨(run ++ mark :: sign).reverse ++ behind, e :: rest⟩ := by
  obtain ⟨figures, x, rfl, hfigures, hx⟩ := exists_last_figure hne hrun
  have hunsigned : sign = [] → ∀ c ∈ (e :: rest).head?, ¬(c = '+' ∨ c = '-') := by
    rintro - c hc (rfl | rfl) <;> obtain rfl := Option.some.inj hc <;> exact absurd he (by decide)
  have hstep : wordStep start true false
      ⟨figures.reverse ++ behind, x :: mark :: (sign ++ e :: rest)⟩ =
        .ok (true, ⟨(figures ++ [x] ++ mark :: sign).reverse ++ behind, e :: rest⟩) := by
    simp [wordStep_of_mark hmark hsign hunsigned, peek_cons, he]
  rw [List.append_assoc, List.singleton_append, wordEnd_figures_append hfigures hx,
    wordEnd_of_ok (isNameChar_of_isFigure hx) hstep]

theorem wordEnd_of_not_isDigit (hne : run ≠ []) (hrun : ∀ c ∈ run, isFigure c = true)
    (hmark : mark = 'e' ∨ mark = 'E') (hsign : sign = [] ∨ sign = ['+'] ∨ sign = ['-'])
    (hunsigned : sign = [] → ∀ c ∈ rest.head?, ¬(c = '+' ∨ c = '-'))
    (hrest : ∀ c ∈ rest.head?, c.isDigit = false) :
    wordEnd start true false ⟨behind, run ++ mark :: (sign ++ rest)⟩ =
      .error (errorAt ⟨(run ++ mark :: sign).reverse ++ behind, rest⟩
        (.malformedExponent (since ⟨(run ++ mark :: sign).reverse ++ behind, rest⟩ start))) := by
  obtain ⟨figures, x, rfl, hfigures, hx⟩ := exists_last_figure hne hrun
  have hdigit (passed : List Char) : (peek ⟨passed, rest⟩).isDigit = false :=
    peek_eq_false rfl hrest
  have hstep : wordStep start true false
      ⟨figures.reverse ++ behind, x :: mark :: (sign ++ rest)⟩ =
        .error (errorAt ⟨(figures ++ [x] ++ mark :: sign).reverse ++ behind, rest⟩
          (.malformedExponent
            (since ⟨(figures ++ [x] ++ mark :: sign).reverse ++ behind, rest⟩ start))) := by
    simp [wordStep_of_mark hmark hsign hunsigned, hdigit]
  rw [List.append_assoc, List.singleton_append, wordEnd_figures_append hfigures hx,
    wordEnd_of_error (isNameChar_of_isFigure hx) hstep]

/-! ## Whole numbers -/

theorem errorAt_reverse_append (passed : List Char) (cause : SyntaxError.Cause) :
    errorAt ⟨passed.reverse ++ behind, rest⟩ cause =
      ⟨text ⟨behind, passed ++ rest⟩, cause,
        position ⟨behind, passed ++ rest⟩ + byteSize passed⟩ := by
  simp [errorAt, text, position, Nat.add_comm]

theorem wordEnd_of_isNumeral {cs : List Char} (hcs : IsNumeral cs) (hrest : EndsWord rest) :
    wordEnd start true false ⟨behind, cs ++ rest⟩ = .ok ⟨cs.reverse ++ behind, rest⟩ := by
  cases hcs with
  | @plain d figures hd hfigures =>
    have hall := forall_isFigure_of_isDigit hd hfigures
    exact wordEnd_of_endsWord (List.cons_ne_nil d figures) hall hrest
  | @scientific d mark e figures sign more hd hfigures hmark hsign he hmore =>
    have hall := forall_isFigure_of_isDigit hd hfigures
    have hdigits := forall_isFigure_of_isDigit he hmore
    have htext : d :: figures ++ mark :: (sign ++ e :: more) ++ rest =
        d :: figures ++ mark :: (sign ++ e :: (more ++ rest)) := by simp
    rw [htext, wordEnd_of_exponent (List.cons_ne_nil d figures) hall hmark hsign he]
    exact (wordEnd_of_endsWord (List.cons_ne_nil e more) hdigits hrest).trans (by simp)

/-- A number is read up to its end. -/
theorem word_of_isNumeral {cs : List Char} (hcs : IsNumeral cs) (hrest : EndsWord rest) :
    word ⟨behind, cs ++ rest⟩ = .ok (String.ofList cs, ⟨cs.reverse ++ behind, rest⟩) := by
  have hdigit : (peek ⟨behind, cs ++ rest⟩).isDigit = true := by
    cases hcs with
    | plain hd | scientific hd => exact hd
  rw [word, hdigit, wordEnd_of_isNumeral hcs hrest]
  simp [bind, Except.bind, pure, Except.pure, since_reverse_append]

theorem wordEnd_of_breaksOff {broken : NumberFault} (h : BreaksOff broken rest) :
    wordEnd ⟨behind, ahead⟩ true false ⟨behind, broken.read.toList ++ rest⟩ =
      .error (errorAt ⟨broken.read.toList.reverse ++ behind, rest⟩
        (Reader.numberCause broken)) := by
  cases h with
  | @letter d c figures rest hd hfigures hc hmark =>
    have hall := forall_isFigure_of_isDigit hd hfigures
    rw [NumberFault.read, String.toList_ofList,
      wordEnd_of_letter (List.cons_ne_nil d figures) hall hc (.inr hmark), since_reverse_append]
    rfl
  | @exponent d mark figures sign rest hd hfigures hmark hsign hunsigned hrest =>
    have hall := forall_isFigure_of_isDigit hd hfigures
    have htext : d :: figures ++ mark :: sign ++ rest =
        d :: figures ++ mark :: (sign ++ rest) := by simp
    rw [NumberFault.read, String.toList_ofList, htext,
      wordEnd_of_not_isDigit (List.cons_ne_nil d figures) hall hmark hsign hunsigned hrest,
      since_reverse_append]
    rfl
  | @letterAfterExponent d mark e c figures sign more rest hd hfigures hmark hsign he hmore hc =>
    have hall := forall_isFigure_of_isDigit hd hfigures
    have hdigits := forall_isFigure_of_isDigit he hmore
    have htext : d :: figures ++ mark :: (sign ++ e :: more) ++ c :: rest =
        d :: figures ++ mark :: (sign ++ e :: (more ++ c :: rest)) := by simp
    have hbehind : (e :: more).reverse ++ ((d :: figures ++ mark :: sign).reverse ++ behind) =
        (d :: figures ++ mark :: (sign ++ e :: more)).reverse ++ behind := by simp
    rw [NumberFault.read, String.toList_ofList, htext,
      wordEnd_of_exponent (List.cons_ne_nil d figures) hall hmark hsign he]
    refine (wordEnd_of_letter (List.cons_ne_nil e more) hdigits hc (.inl rfl)).trans ?_
    rw [hbehind, since_reverse_append]
    rfl

/-- A number that breaks off is refused where it does. -/
theorem word_of_breaksOff {broken : NumberFault} (h : BreaksOff broken rest) :
    word ⟨behind, broken.read.toList ++ rest⟩ =
      .error ⟨text ⟨behind, broken.read.toList ++ rest⟩, Reader.numberCause broken,
        position ⟨behind, broken.read.toList ++ rest⟩ + byteSize broken.read.toList⟩ := by
  obtain ⟨d, ds, hread, hd⟩ := h.exists_digit
  have hdigit : (peek ⟨behind, broken.read.toList ++ rest⟩).isDigit = true := by
    rw [hread]
    exact hd
  rw [word, hdigit, wordEnd_of_breaksOff h, errorAt_reverse_append]
  rfl

end

end Text.Cursor

/-! ## What is read -/

/-- The sign of an exponent, if it has one, and what follows. -/
def cutSign (cs : List Char) : List Char × List Char :=
  match cs with
  | [] => ([], [])
  | c :: cs => if c = '+' ∨ c = '-' then ([c], cs) else ([], c :: cs)

theorem cutSign_append (cs : List Char) : (cutSign cs).1 ++ (cutSign cs).2 = cs := by
  unfold cutSign
  split
  · rfl
  · split <;> rfl

theorem isSign_cutSign (cs : List Char) :
    (cutSign cs).1 = [] ∨ (cutSign cs).1 = ['+'] ∨ (cutSign cs).1 = ['-'] := by
  unfold cutSign
  split
  · exact .inl rfl
  · split
    · next hsign => exact .inr (by simpa using hsign)
    · exact .inl rfl

/-- Without a sign, what follows starts with none. -/
theorem unsigned_of_cutSign {cs : List Char} (h : (cutSign cs).1 = []) :
    ∀ c ∈ (cutSign cs).2.head?, ¬(c = '+' ∨ c = '-') := by
  cases cs with
  | nil => simp [cutSign]
  | cons c cs =>
    rw [cutSign] at h ⊢
    split
    · next hsign =>
      rw [if_pos hsign] at h
      cases h
    · next hsign => simpa using hsign

/-- The text that starts with `d` starts with a number, as long as it can be: a cursor goes past it,
the scanner finds it, and wherever an operand is due it is the operand. -/
structure ReadsNumber (d : Char) (ds number rest : List Char) : Prop where
  split : d :: ds = number ++ rest
  word (behind : List Char) : Cursor.word ⟨behind, d :: ds⟩ =
    .ok (String.ofList number, ⟨number.reverse ++ behind, rest⟩)
  scan : Token.scan d ds = (.number (String.ofList number), rest)
  reading (limit start : Nat) (frames : List Reader.Frame) {stage : Reader.Stage}
    (hstage : stage = .start ∨ stage = .operand) :
    Reader.readExpr limit ⟨frames, stage⟩ (lexemesFrom start (d :: ds)) =
      Reader.readExpr limit ⟨frames, .operator (.number (String.ofList number))⟩
        (lexemesFrom (start + byteSize number) rest)
  isNumeral : IsNumeral number
  longest {other : List Char} (hother : IsNumeral other) (h : other <+: d :: ds) : other <+: number

/-- The text that starts with `d` starts with a number that breaks off, and is refused right behind
what has been read of it. -/
structure RefusesNumber (d : Char) (ds : List Char) (broken : NumberFault) (rest : List Char) :
    Prop where
  split : d :: ds = broken.read.toList ++ rest
  word (behind : List Char) : Cursor.word ⟨behind, d :: ds⟩ =
    .error ⟨Cursor.text ⟨behind, d :: ds⟩, Reader.numberCause broken,
      Cursor.position ⟨behind, d :: ds⟩ + byteSize broken.read.toList⟩
  scan : Token.scan d ds = (.malformed broken, rest)
  reading (limit start : Nat) (frames : List Reader.Frame) {stage : Reader.Stage}
    (hstage : stage = .start ∨ stage = .operand) :
    Reader.readExpr limit ⟨frames, stage⟩ (lexemesFrom start (d :: ds)) =
      .error ⟨Reader.numberCause broken, start + byteSize broken.read.toList⟩

/-- The text that starts with `d` starts with `q`, figures with the mark of an exponent and its
sign, and goes on with `behind`, which decides what becomes of it. -/
structure ReadsExponent (d : Char) (ds q behind : List Char) : Prop where
  withoutDigits (hbehind : ∀ e ∈ behind.head?, e.isDigit = false) :
    RefusesNumber d ds (.exponentWithoutDigits (String.ofList q)) behind
  withDigits {e : Char} (he : e ∈ behind.head?) (hdigit : e.isDigit = true)
    (hlast : ∀ c ∈ (behind.dropWhile isFigure).head?, isAlphabetic c = false) :
    ReadsNumber d ds (q ++ behind.takeWhile isFigure) (behind.dropWhile isFigure)
  beforeLetter {e c : Char} (he : e ∈ behind.head?) (hdigit : e.isDigit = true)
    (hc : c ∈ (behind.dropWhile isFigure).head?) (hletter : isAlphabetic c = true) :
    RefusesNumber d ds (.letterAfterNumber (String.ofList (q ++ behind.takeWhile isFigure)))
      (behind.dropWhile isFigure)

section

variable {d : Char} {ds cs rest : List Char}

/-- Nothing longer than a number that ends is a number. -/
theorem IsNumeral.isPrefix {other : List Char} (hcs : IsNumeral cs) (hrest : EndsWord rest)
    (hother : IsNumeral other) (h : other <+: cs ++ rest) : other <+: cs := by
  rcases List.prefix_or_prefix_of_prefix h (List.prefix_append cs rest) with hshort | hlong
  · exact hshort
  · obtain ⟨more, rfl⟩ := hlong
    obtain ⟨after, rfl⟩ := (List.prefix_append_right_inj cs).mp h
    have hmore : EndsWord more := by
      cases more with
      | nil => exact endsWord_nil
      | cons c more => exact endsWord_cons.mpr (hrest c rfl)
    -- The scanner stops in front of `more` and, because the longer text is a number, behind it.
    have hshort := Token.scanNumber_of_isNumeral hcs hmore
    have hlong := Token.scanNumber_of_isNumeral hother endsWord_nil
    rw [List.append_nil, hshort] at hlong
    obtain rfl : more = [] := (Prod.mk.inj hlong).2
    simp

theorem ReadsNumber.of_isNumeral (hd : d.isDigit = true) (hsplit : d :: ds = cs ++ rest)
    (hcs : IsNumeral cs) (hrest : EndsWord rest) : ReadsNumber d ds cs rest := by
  have hscan : Token.scan d ds = (.number (String.ofList cs), rest) := by
    rw [Token.scan, if_pos hd, hsplit, Token.scanNumber_of_isNumeral hcs hrest]
  refine ⟨hsplit, fun behind ↦ ?_, hscan, fun limit start frames stage hstage ↦ ?_, hcs,
    fun hother h ↦ ?_⟩
  · rw [hsplit]
    exact Cursor.word_of_isNumeral hcs hrest
  · rw [lexemesFrom_of_scan (isBlank_of_isDigit hd) hscan, Token.text, String.toList_ofList]
    rcases hstage with rfl | rfl <;> rfl
  · rw [hsplit] at h
    exact hcs.isPrefix hrest hother h

theorem RefusesNumber.of_breaksOff {broken : NumberFault} (hd : d.isDigit = true)
    (hsplit : d :: ds = broken.read.toList ++ rest) (h : BreaksOff broken rest) :
    RefusesNumber d ds broken rest := by
  have hscan : Token.scan d ds = (.malformed broken, rest) := by
    rw [Token.scan, if_pos hd, hsplit, Token.scanNumber_of_breaksOff h]
  refine ⟨hsplit, fun behind ↦ ?_, hscan, fun limit start frames stage hstage ↦ ?_⟩
  · rw [hsplit]
    exact Cursor.word_of_breaksOff h
  · rw [lexemesFrom_of_scan (isBlank_of_isDigit hd) hscan, ← Reader.offset_numberCause]
    rcases hstage with rfl | rfl <;> rfl

/-- Behind the figures of a number that no letter follows, no word goes on. -/
theorem endsWord_dropWhile (h : ∀ c ∈ (cs.dropWhile isFigure).head?, isAlphabetic c = false) :
    EndsWord (cs.dropWhile isFigure) :=
  fun c hc ↦ isNameChar_eq_false_iff.mpr ⟨h c hc, head_dropWhile isFigure cs c hc⟩

theorem ReadsExponent.of_sign {mark : Char} {figures sign behind : List Char}
    (hd : d.isDigit = true) (hsplit : d :: ds = d :: figures ++ mark :: sign ++ behind)
    (hfigures : ∀ c ∈ figures, isFigure c = true) (hmark : mark = 'e' ∨ mark = 'E')
    (hsign : sign = [] ∨ sign = ['+'] ∨ sign = ['-'])
    (hunsigned : sign = [] → ∀ c ∈ behind.head?, ¬(c = '+' ∨ c = '-')) :
    ReadsExponent d ds (d :: figures ++ mark :: sign) behind := by
  have hlast : d :: ds = d :: figures ++ mark :: sign ++ behind.takeWhile isFigure ++
      behind.dropWhile isFigure := by
    rw [List.append_assoc _ (behind.takeWhile isFigure), List.takeWhile_append_dropWhile, hsplit]
  -- If a digit is next, it is the first one of the exponent, and figures may follow it.
  have hdigits {e : Char} (he : e ∈ behind.head?) (hdigit : e.isDigit = true) :
      ∃ more, (∀ c ∈ more, isFigure c = true) ∧
        d :: figures ++ mark :: sign ++ behind.takeWhile isFigure =
          d :: figures ++ mark :: (sign ++ e :: more) := by
    obtain ⟨rest, rfl⟩ := List.head?_eq_some_iff.mp he
    refine ⟨rest.takeWhile isFigure, fun c hc ↦ List.mem_takeWhile_imp hc, ?_⟩
    rw [List.takeWhile_cons_of_pos (isFigure_of_isDigit hdigit)]
    simp
  refine ⟨fun hbehind ↦ ?_, fun he hdigit hend ↦ ?_, fun he hdigit hc hletter ↦ ?_⟩
  · have hbroken := BreaksOff.exponent hd hfigures hmark hsign hunsigned hbehind
    exact .of_breaksOff hd (by simpa [NumberFault.read] using hsplit) hbroken
  · obtain ⟨more, hmore, hnumber⟩ := hdigits he hdigit
    have hnumeral := IsNumeral.scientific hd hfigures hmark hsign hdigit hmore
    rw [← hnumber] at hnumeral
    exact .of_isNumeral hd hlast hnumeral (endsWord_dropWhile hend)
  · obtain ⟨more, hmore, hnumber⟩ := hdigits he hdigit
    obtain ⟨after, hafter⟩ := List.head?_eq_some_iff.mp hc
    have hbroken : BreaksOff _ (_ :: after) :=
      .letterAfterExponent hd hfigures hmark hsign hdigit hmore hletter
    rw [← hnumber, ← hafter] at hbroken
    exact .of_breaksOff hd (by simpa [NumberFault.read] using hlast) hbroken

end

/-- What becomes of any text that starts with a digit is decided behind the figures that it starts
with. -/
theorem reads_number_exactly {d : Char} (hd : d.isDigit = true) (ds : List Char) :
    ((∀ c ∈ ((d :: ds).dropWhile isFigure).head?, isAlphabetic c = false) →
      ReadsNumber d ds ((d :: ds).takeWhile isFigure) ((d :: ds).dropWhile isFigure)) ∧
    ∀ c tail, (d :: ds).dropWhile isFigure = c :: tail →
      (isAlphabetic c = true → ¬(c = 'e' ∨ c = 'E') →
        RefusesNumber d ds (.letterAfterNumber (String.ofList ((d :: ds).takeWhile isFigure)))
          (c :: tail)) ∧
      (c = 'e' ∨ c = 'E' →
        ReadsExponent d ds ((d :: ds).takeWhile isFigure ++ c :: (cutSign tail).1)
          (cutSign tail).2) := by
  have hfigures : ∀ c ∈ ds.takeWhile isFigure, isFigure c = true :=
    fun c hc ↦ List.mem_takeWhile_imp hc
  have hsplit : d :: ds = (d :: ds).takeWhile isFigure ++ (d :: ds).dropWhile isFigure :=
    List.takeWhile_append_dropWhile.symm
  rw [List.takeWhile_cons_of_pos (isFigure_of_isDigit hd)] at hsplit ⊢
  refine ⟨fun hrest ↦ .of_isNumeral hd hsplit (.plain hd hfigures) (endsWord_dropWhile hrest),
    fun c tail hrest ↦ ⟨fun hletter hmark ↦ ?_, fun hmark ↦ ?_⟩⟩
  · rw [hrest] at hsplit
    have hbroken : BreaksOff _ (c :: tail) := .letter hd hfigures hletter hmark
    exact .of_breaksOff hd (by simpa [NumberFault.read] using hsplit) hbroken
  · refine .of_sign hd ?_ hfigures hmark (isSign_cutSign tail) unsigned_of_cutSign
    have hsign : c :: tail = c :: (cutSign tail).1 ++ (cutSign tail).2 := by
      rw [List.cons_append, cutSign_append]
    rw [hsplit, hrest, hsign, List.append_assoc]

/-- A letter behind an exponent is no part of it, be it another `e`. -/
theorem reads_number_exactly_of_second_mark :
    '1'.isDigit = true ∧
      RefusesNumber '1' ['.', '5', 'e', '-', '3', 'e', '2'] (.letterAfterNumber "1.5e-3")
        ['e', '2'] := by
  have hd : '1'.isDigit = true := by decide
  have hexponent := ((reads_number_exactly hd ['.', '5', 'e', '-', '3', 'e', '2']).2 'e'
    ['-', '3', 'e', '2'] rfl).2 (.inl rfl)
  have hthree : '3'.isDigit = true := by decide
  have hletter : isAlphabetic 'e' = true := by decide
  exact ⟨hd, hexponent.beforeLetter rfl hthree rfl hletter⟩

end ClosedForm
