import ClosedForm.Proofs.FirstFault
import ClosedForm.Proofs.Symbols
import Mathlib.Data.List.DropRight

/-!
# What an error says about the text

Each cause of an error says something about the text around the place where it shows: which
character stands there, how the text in front of it ends, or that more parentheses are open there
than closed. All of it is so (`parse_error_describes`). What the reader has behind it is known from
its state: brackets among the frames are parentheses that have been opened and not closed, and a
function waits for its argument only right behind its name.
-/

namespace ClosedForm

open Grammar
open Reader
open SyntaxError (Cause)
open Text (byteSize isAlphabetic isBlank)

/-- What a cause says about the text in front of the place where it shows and behind it. -/
def SyntaxError.Cause.Holds (before after : List Char) : Cause → Prop
  | unexpectedCharacter c =>
    after.head? = some c ∧ c ∉ ['+', '-', '*', '/', '^', '=', ')', '\n', '\r', ' ', '\t']
  | misplacedOperator c => after.head? = some c ∧ c ∈ ['+', '-', '*', '/', '^', '=']
  | missingOperand => after = []
  | missingLeftParenthesis => after.head? = some ')'
  | missingRightParenthesis => after.head? ≠ some ')' ∧ before.count ')' < before.count '('
  | missingFunctionParenthesis f =>
    f.name.toList <:+ before.rdropWhile isBlank ∧ after.head? ≠ some '('
  | endOfLine => after.head? = some '\n' ∨ after.head? = some '\r'
  | malformedExponent read =>
    read.toList <:+ before ∧ (∃ d ∈ read.toList.head?, d.isDigit = true) ∧
      (∃ figures mark sign, read.toList = figures ++ mark :: sign ∧ (mark = 'e' ∨ mark = 'E') ∧
        (sign = [] ∨ sign = ['+'] ∨ sign = ['-'])) ∧
      ∀ c ∈ after.head?, c.isDigit = false
  | malformedNumber read =>
    read.toList <:+ before ∧ (∃ d ∈ read.toList.head?, d.isDigit = true) ∧
      ∃ c ∈ after.head?, isAlphabetic c = true
  | cursorExhausted => False

/-- The error is about the text, stands between two of its characters, and its cause is so there. -/
structure SyntaxError.Describes (error : SyntaxError) (text : String) : Prop where
  equation : error.equation = text
  position : error.position ≤ byteSize text.toList
  cause : ∃ before after, Text.splitAtByte? text.toList error.position = some (before, after) ∧
    error.cause.Holds before after

theorem SyntaxError.Describes.of_append {text : String} {cause : Cause} {position : Nat}
    {before after : List Char} (htext : text.toList = before ++ after)
    (hposition : position = byteSize before) (hcause : cause.Holds before after) :
    SyntaxError.Describes ⟨text, cause, position⟩ text where
  equation := rfl
  position := by
    rw [htext, hposition, Text.byteSize_append]
    exact Nat.le_add_right _ _
  cause := by
    refine ⟨before, after, ?_, hcause⟩
    rw [htext, hposition]
    exact Text.splitAtByte?_byteSize before after

/-! ## What a state bears out -/

/-- A bracket holds an operand until it is closed. -/
def Reader.Frame.isBracket : Frame → Bool
  | parenthesis | call _ => true
  | negation | operation _ _ => false

/-- What the tokens that have led to a state are known to be. -/
structure Reader.State.AccountsFor (state : State) (tokens : List Token) : Prop where
  argument : ∀ f, state.stage = .argument f → [.function f] <:+ tokens
  brackets : tokens.count .opening = tokens.count .closing + state.frames.countP Frame.isBracket

theorem Grammar.Derives.count_opening {category : Category} {tokens : List Token} {e : Expr}
    (h : Derives category tokens e) : tokens.count .opening = tokens.count .closing := by
  induction h with
  | number text | name text => rfl
  | call f h ih | group h ih => simp [ih]
  | factor h ih | term h ih | expression h ih => exact ih
  | negation h ih => simpa using ih
  | power hl hr ihl ihr | product hop hl hr ihl ihr | sum hop hl hr ihl ihr => simp [ihl, ihr]

namespace Reader

theorem Pending.count_opening {frames : List Frame} {tokens : List Token}
    (h : Pending frames tokens) :
    tokens.count .opening = tokens.count .closing + frames.countP Frame.isBracket := by
  induction h with
  | nil => rfl
  | negation h hbelow ih => simpa [Frame.isBracket] using ih
  | operation h hbelow hl ih =>
    have hbalanced := hl.count_opening
    simp [Frame.isBracket, hbalanced, ih]
    omega
  | parenthesis h ih | call f h ih =>
    simp [List.countP_cons, Frame.isBracket, ih]
    omega

namespace State.AccountsFor

theorem of_reads {state : State} {tokens : List Token} (h : Reads state tokens) :
    state.AccountsFor tokens := by
  cases h with
  | start h hbelow => exact ⟨by simp, h.count_opening⟩
  | operand h => exact ⟨by simp, h.count_opening⟩
  | argument f h =>
    constructor
    · intro g hg
      obtain rfl := Stage.argument.inj hg
      exact List.suffix_append _ _
    · simpa using h.count_opening
  | operator h he =>
    refine ⟨by simp, ?_⟩
    have hopen := h.count_opening
    have hbalanced := he.count_opening
    rw [List.count_append, List.count_append, hopen, hbalanced]
    exact Nat.add_right_comm _ _ _

/-- Tokens with balanced parentheses may come first. -/
theorem append {state : State} {tokens before : List Token} (h : state.AccountsFor tokens)
    (hbefore : before.count .opening = before.count .closing) :
    state.AccountsFor (before ++ tokens) := by
  constructor
  · intro f hf
    exact (h.argument f hf).trans (List.suffix_append _ _)
  · rw [List.count_append, List.count_append, h.brackets, hbefore, Nat.add_assoc]

end State.AccountsFor

/-- What is left of the frames of a settled operand starts with a bracket. -/
theorem countP_isBracket_pos {frames outer : List Frame} {bracket : Frame} {e whole : Expr}
    (h : settle 1 frames e = (bracket :: outer, whole)) : 0 < frames.countP Frame.isBracket := by
  induction frames generalizing e with
  | nil => cases h
  | cons frame frames ih =>
    by_cases hframe : frame.isBracket = true
    · rw [List.countP_cons_of_pos hframe]
      exact Nat.succ_pos _
    · have hle : 1 ≤ frame.precedence := by
        cases frame with
        | negation => exact Nat.le_refl 1
        | operation left op => exact precedence_pos op
        | parenthesis | call f => exact absurd rfl hframe
      rw [settle_of_le hle] at h
      rw [List.countP_cons_of_neg hframe]
      exact ih h

/-- What is refused behind an operand does not close the bracket around it. -/
theorem readOperator_fail_cases {frames : List Frame} {e : Expr} {t : Token} {cause : Cause}
    (h : readOperator frames e t = .fail cause) :
    cause = .missingRightParenthesis ∧ t ≠ .closing ∧ 0 < frames.countP Frame.isBracket := by
  have hcause := readOperator_eq_fail h
  unfold readOperator at h
  split at h
  · cases h
  · split at h
    · cases h
    · cases h
    · next hsettle hclosing _ => exact ⟨hcause, hclosing, countP_isBracket_pos hsettle⟩

theorem finish_eq_error_cases {state : State} {cause : Cause} (h : state.finish = .error cause) :
    cause = .missingOperand ∨
      (∃ f, state.stage = .argument f ∧ cause = .missingFunctionParenthesis f) ∨
      cause = .missingRightParenthesis ∧ 0 < state.frames.countP Frame.isBracket := by
  obtain ⟨frames, stage⟩ := state
  cases stage with
  | start | operand => exact .inl (Except.error.inj h).symm
  | argument f => exact .inr (.inl ⟨f, rfl, (Except.error.inj h).symm⟩)
  | operator completed =>
    simp only [State.finish] at h
    split at h
    · cases h
    · next hsettle =>
      exact .inr (.inr ⟨(Except.error.inj h).symm, countP_isBracket_pos hsettle⟩)

end Reader

/-! ## The text in front of a token -/

theorem forall_isBlank_of_lexemesFrom {start : Nat} {cs : List Char}
    (h : lexemesFrom start cs = []) : ∀ c ∈ cs, isBlank c = true := by
  fun_induction lexemesFrom start cs with
  | case1 start => simp
  | case2 start c cs hblank ih => exact List.forall_mem_cons.mpr ⟨hblank, ih h⟩
  | case3 start c cs hblank read => cases h

theorem isBlank_eq_false_of_isWordChar {c : Char} (h : isWordChar c = true) :
    isBlank c = false := by
  apply Bool.eq_false_iff.mpr
  intro hblank
  rw [isWordChar_of_isWhiteSpace (Text.isWhiteSpace_of_isBlank hblank)] at h
  cases h

theorem rdropWhile_append_word {word blanks : List Char} (hne : word ≠ [])
    (hword : ∀ c ∈ word, isWordChar c = true) (hblanks : ∀ c ∈ blanks, isBlank c = true)
    (cs : List Char) : (cs ++ (word ++ blanks)).rdropWhile isBlank = cs ++ word := by
  have hreverse : ∀ c ∈ blanks.reverse, isBlank c = true :=
    fun c hc ↦ hblanks c (List.mem_reverse.mp hc)
  have hlast : ∀ c ∈ (word.reverse ++ cs.reverse).head?, isBlank c = false := by
    obtain ⟨last, rest, hlast⟩ := List.exists_cons_of_ne_nil (mt List.reverse_eq_nil_iff.mp hne)
    rw [hlast]
    intro c hc
    obtain rfl := Option.some.inj hc
    apply isBlank_eq_false_of_isWordChar
    apply hword
    rw [← List.mem_reverse, hlast]
    exact List.mem_cons_self
  have hdrop := dropWhile_of_endsWith hreverse hlast
  rw [List.rdropWhile, List.reverse_append, List.reverse_append, List.append_assoc, hdrop,
    ← List.reverse_append, List.reverse_reverse]

/-- A text whose last token is a function ends in its name and blanks. -/
theorem name_suffix_of_lexemes {front : List Char} {read : List Lexeme} {f : Fn}
    (hfront : lexemesFrom 0 front = read) (hfaults : ∀ l ∈ read, l.token.isFault = false)
    (hlast : [.function f] <:+ read.map Lexeme.token) :
    f.name.toList <:+ front.rdropWhile isBlank := by
  obtain ⟨tokens, htokens⟩ := hlast
  obtain ⟨init, last, rfl, -, hlast⟩ := List.map_eq_append_iff.mp htokens.symm
  obtain ⟨l, rfl, hl⟩ := List.map_eq_singleton_iff.mp hlast
  obtain ⟨start, c, cs, place, rfl, hscan, hblanks, -⟩ :=
    exists_front_of_cons hfront (List.forall_mem_append.mp hfaults).1
  have htext := Token.text_scan_append c cs
  rw [hscan, hl] at htext
  have hname := Token.isIdentifier_name f
  rw [← htext, Token.text, rdropWhile_append_word hname.ne_nil hname.isWordChar
    (forall_isBlank_of_lexemesFrom hblanks.symm)]
  exact List.suffix_append _ _

/-- What a state bears out about the text in front of the token it is in front of. -/
structure Reader.State.IsBehind (state : State) (front : List Char) : Prop where
  argument : ∀ f, state.stage = .argument f → f.name.toList <:+ front.rdropWhile isBlank
  brackets : 0 < state.frames.countP Frame.isBracket → front.count ')' < front.count '('

theorem Reader.State.AccountsFor.isBehind {state : State} {front : List Char} {read : List Lexeme}
    (h : state.AccountsFor (read.map Lexeme.token)) (hfront : lexemesFrom 0 front = read)
    (hfaults : ∀ l ∈ read, l.token.isFault = false) : state.IsBehind front := by
  subst hfront
  constructor
  · intro f hf
    exact name_suffix_of_lexemes rfl hfaults (h.argument f hf)
  · intro hopen
    have hopening := count_eq_count_tokens (x := '(') (by decide) (by decide) 0 front
    have hclosing := count_eq_count_tokens (x := ')') (by decide) (by decide) 0 front
    calc
      front.count ')' = ((lexemesFrom 0 front).map Lexeme.token).count .closing := hclosing
      _ < ((lexemesFrom 0 front).map Lexeme.token).count .opening := by
        rw [h.brackets]
        exact Nat.lt_add_of_pos_right hopen
      _ = front.count '(' := hopening.symm

/-! ## What a fault says -/

/-- A character that is no operator, and none of those that have causes of their own. -/
theorem holds_unexpectedCharacter {c : Char} {cs : List Char} (hblank : isBlank c = false)
    (hoperator : ∀ op, (Token.scan c cs).1 ≠ .operator op) (hequals : c ≠ '=') (hclosing : c ≠ ')')
    (hend : ¬(c = '\n' ∨ c = '\r')) (before : List Char) :
    (Cause.unexpectedCharacter c).Holds before (c :: cs) := by
  have hsymbol (op : BinaryOp) : c ≠ op.symbol := by
    rintro rfl
    apply hoperator op
    cases op <;> rfl
  refine ⟨rfl, ?_⟩
  intro hmem
  simp only [List.mem_cons, List.not_mem_nil, or_false] at hmem
  rcases hmem with h | h | h | h | h | h | h | h | h | h | h
  · exact hsymbol .plus h
  · exact hsymbol .minus h
  · exact hsymbol .times h
  · exact hsymbol .divide h
  · exact hsymbol .power h
  · exact hequals h
  · exact hclosing h
  · exact hend (.inl h)
  · exact hend (.inr h)
  · subst h
    cases hblank
  · subst h
    cases hblank

theorem holds_of_breaksOff {broken : NumberFault} {behind : List Char}
    (h : BreaksOff broken behind) (before : List Char) :
    (numberCause broken).Holds (before ++ broken.read.toList) behind := by
  obtain ⟨d, cs, hread, hd⟩ := h.exists_digit
  have hdigit : ∃ d ∈ broken.read.toList.head?, d.isDigit = true := ⟨d, by simp [hread], hd⟩
  have hsuffix : broken.read.toList <:+ before ++ broken.read.toList := List.suffix_append _ _
  cases h with
  | letter _ _ hc | letterAfterExponent _ _ _ _ _ _ hc => exact ⟨hsuffix, hdigit, _, rfl, hc⟩
  | exponent _ _ hmark hsign _ hrest =>
    exact ⟨hsuffix, hdigit, ⟨_, _, _, String.toList_ofList, hmark, hsign⟩, hrest⟩

namespace Reader

variable {front : List Char} {state : State} {c : Char} {cs : List Char} {cause : Cause}

/-- The cause shows behind some part of the text `cs` that follows `front`, and it is so there: a
number that breaks off is read up to the fault, and of other tokens nothing is. -/
def HoldsWithin (cause : Cause) (front cs : List Char) : Prop :=
  ∃ part behind, cs = part ++ behind ∧ cause.offset = byteSize part ∧
    cause.Holds (front ++ part) behind

theorem HoldsWithin.of_holds (hoffset : cause.offset = 0) (h : cause.Holds front cs) :
    HoldsWithin cause front cs :=
  ⟨[], cs, rfl, hoffset, by rwa [List.append_nil]⟩

theorem holdsWithin_of_readOperand {frames : List Frame} {t : Token} (hblank : isBlank c = false)
    (hscan : (Token.scan c cs).1 = t) (h : readOperand frames t = .fail cause) :
    HoldsWithin cause front (c :: cs) := by
  have hfirst {x : Char} (htext : t.text = String.singleton x) : c = x := by
    rw [← hscan] at htext
    exact (Token.eq_of_text_scan htext).1
  cases t with
  | number text | name text | function f | opening => cases h
  | closing =>
    obtain rfl := Verdict.fail.inj h
    obtain rfl : c = ')' := hfirst rfl
    exact .of_holds rfl rfl
  | operator op =>
    obtain rfl := Verdict.fail.inj h
    obtain rfl : c = op.symbol := hfirst rfl
    exact .of_holds rfl ⟨rfl, by cases op <;> decide⟩
  | equals =>
    obtain rfl := Verdict.fail.inj h
    obtain rfl : c = '=' := hfirst rfl
    exact .of_holds rfl ⟨rfl, by decide⟩
  | malformed broken =>
    obtain rfl := Verdict.fail.inj h
    have hbroken : BreaksOff broken (Token.scan c cs).2 :=
      Token.breaksOff_of_scan (Prod.ext hscan rfl)
    have hcs := Token.text_scan_append c cs
    rw [hscan] at hcs
    exact ⟨broken.read.toList, _, hcs.symm, offset_numberCause broken,
      holds_of_breaksOff hbroken front⟩
  | stray x =>
    obtain rfl := Verdict.fail.inj h
    obtain rfl : c = x := hfirst rfl
    refine .of_holds (offset_strayCause c) ?_
    unfold strayCause
    split
    · next hend => exact hend.imp (congrArg some) (congrArg some)
    · next hend =>
      have hoperator (op : BinaryOp) : (Token.scan c cs).1 ≠ .operator op := by simp [hscan]
      -- An equals sign and a parenthesis are tokens of their own and do not stray.
      have hequals : c ≠ '=' := by
        rintro rfl
        cases hscan
      have hclosing : c ≠ ')' := by
        rintro rfl
        cases hscan
      exact holds_unexpectedCharacter hblank hoperator hequals hclosing hend front

theorem step_fail_cases {t : Token} (h : state.step t = .fail cause) :
    readOperand state.frames t = .fail cause ∨
      (∃ f, state.stage = .argument f ∧ t ≠ .opening ∧ cause = .missingFunctionParenthesis f) ∨
      ∃ e, readOperator state.frames e t = .fail cause := by
  obtain ⟨frames, stage⟩ := state
  cases stage with
  | start =>
    by_cases hminus : t = .operator .minus
    · subst hminus
      cases h
    · rw [step_start_of_ne hminus] at h
      exact .inl h
  | operand => exact .inl h
  | argument f =>
    by_cases hopening : t = .opening
    · subst hopening
      cases h
    · have hcause : cause = .missingFunctionParenthesis f := by
        cases t with
        | opening => exact absurd rfl hopening
        | _ => exact (Verdict.fail.inj h).symm
      exact .inr (.inl ⟨f, rfl, hopening, hcause⟩)
  | operator e => exact .inr (.inr ⟨e, h⟩)

namespace State.IsBehind

theorem holdsWithin_of_step (h : state.IsBehind front) (hblank : isBlank c = false)
    (hstep : state.step (Token.scan c cs).1 = .fail cause) : HoldsWithin cause front (c :: cs) := by
  rcases step_fail_cases hstep with hoperand | ⟨f, hstage, hopening, rfl⟩ | ⟨e, hoperator⟩
  · exact holdsWithin_of_readOperand hblank rfl hoperand
  · refine .of_holds rfl ⟨h.argument f hstage, ?_⟩
    intro hc
    obtain rfl := Option.some.inj hc
    exact hopening rfl
  · obtain ⟨rfl, hclosing, hopen⟩ := readOperator_fail_cases hoperator
    refine .of_holds rfl ⟨?_, h.brackets hopen⟩
    intro hc
    obtain rfl := Option.some.inj hc
    exact hclosing rfl

theorem holds_of_finish (h : state.IsBehind front) (hfinish : state.finish = .error cause) :
    cause.Holds front [] := by
  rcases finish_eq_error_cases hfinish with rfl | ⟨f, hstage, rfl⟩ | ⟨rfl, hopen⟩
  · exact rfl
  · exact ⟨h.argument f hstage, by simp⟩
  · exact ⟨by simp, h.brackets hopen⟩

/-- What follows a complete expression is no operator. -/
theorem holds_trailingCause (hblank : isBlank c = false) {e : Expr}
    (hstop : state.step (Token.scan c cs).1 = .stop e) :
    (trailingCause c).Holds front (c :: cs) := by
  obtain ⟨-, -, -, hoperator⟩ := step_eq_stop_iff.mp hstop
  unfold trailingCause
  split
  · next hend => exact hend.imp (congrArg some) (congrArg some)
  · next hend =>
    split
    · next hclosing => exact congrArg some hclosing
    · next hclosing =>
      split
      · next hequals => exact ⟨congrArg some hequals, by decide⟩
      · next hequals => exact holds_unexpectedCharacter hblank hoperator hequals hclosing hend front

/-- A fault describes what the state rejects. -/
theorem describes {text : String} {behind : List Char} {mayEquate : Bool} {fault : Fault}
    (h : state.IsBehind front) (htext : text.toList = front ++ behind)
    (hhead : ∀ c ∈ behind.head?, isBlank c = false)
    (hrejects : state.Rejects (byteSize text.toList) mayEquate
      (lexemesFrom (byteSize front) behind) fault) :
    (fault.toSyntaxError text).Describes text := by
  cases behind with
  | nil =>
    rw [lexemesFrom] at hrejects
    cases hrejects with
    | refuses hrefuses =>
      cases hrefuses with
      | finish hfinish =>
        refine .of_append htext ?_ (h.holds_of_finish hfinish)
        rw [htext, List.append_nil]
  | cons c cs =>
    have hblank := hhead c rfl
    rw [lexemesFrom_cons hblank] at hrejects
    cases hrejects with
    | refuses hrefuses =>
      cases hrefuses with
      | step hstep =>
        obtain ⟨part, behind, hcs, hoffset, hholds⟩ := h.holdsWithin_of_step hblank hstep
        refine .of_append ?_ ?_ hholds
        · rw [htext, hcs, List.append_assoc]
        · rw [Text.byteSize_append, hoffset]
    | trailing hstop => exact .of_append htext rfl (holds_trailingCause hblank hstop)

end State.IsBehind

/-- A fault behind the tokens that have been read describes the text. -/
theorem State.AccountsFor.describes {text : String} {read rest : List Lexeme} {mayEquate : Bool}
    {fault : Fault} (h : state.AccountsFor (read.map Lexeme.token))
    (htext : lexemes text = read ++ rest) (hfaults : ∀ l ∈ read, l.token.isFault = false)
    (hrejects : state.Rejects (byteSize text.toList) mayEquate rest fault) :
    (fault.toSyntaxError text).Describes text := by
  obtain ⟨front, behind, hcs, hrest, hhead, hother⟩ := exists_front htext hfaults
  have hfront : lexemesFrom 0 front = read := by
    simpa [lexemesFrom] using hother [] (replaces_nil _)
  rw [Nat.zero_add] at hrest
  rw [hrest] at hrejects
  exact (h.isBehind hfront hfaults).describes hcs hhead hrejects

end Reader

/-! ## What an error says -/

theorem Expr.describes_of_parse {text : String} {error : SyntaxError}
    (h : Expr.parse text = .error error) : error.Describes text := by
  obtain ⟨fault, hread, rfl⟩ := mapError_eq_error_iff.mp h
  obtain ⟨read, state, rest, htext, hrun, hrejects⟩ := readWhole_eq_error_iff.mp hread
  have haccounts : state.AccountsFor (read.map Lexeme.token) :=
    .of_reads (reads_initial.run hrun)
  exact haccounts.describes htext (Expr.suspends hrun).isFault hrejects

theorem Equation.describes_of_parse {text : String} {error : SyntaxError}
    (h : Equation.parse text = .error error) : error.Describes text := by
  obtain ⟨fault, hread, rfl⟩ := mapError_eq_error_iff.mp h
  rcases readEquation_eq_error_iff.mp hread with
    ⟨read, state, rest, htext, hrun, hrejects⟩ |
    ⟨left, equals, right, e, htext, hequals, hleft, hright⟩
  · have haccounts : state.AccountsFor (read.map Lexeme.token) :=
      .of_reads (reads_initial.run hrun)
    exact haccounts.describes htext (Equation.suspends_left hrun).isFault hrejects
  · -- The left-hand side and the equals sign leave no parenthesis open.
    obtain ⟨read, state, rest, rfl, hrun, hrejects⟩ := readWhole_eq_error_iff.mp hright
    have hbalanced : ((left ++ [equals]).map Lexeme.token).count .opening =
        ((left ++ [equals]).map Lexeme.token).count .closing := by
      simp [hequals, hleft.count_opening]
    have haccounts : state.AccountsFor ((left ++ equals :: read).map Lexeme.token) := by
      simpa using (State.AccountsFor.of_reads (reads_initial.run hrun)).append hbalanced
    have htext' : lexemes text = left ++ equals :: read ++ rest := by simpa using htext
    exact haccounts.describes htext' (Equation.suspends_right hequals hleft hrun).isFault hrejects

/-- Every error of the parsers is about the text as it stands: it is nowhere else than it says, and
its cause is so there. -/
theorem parse_error_describes :
    (∀ text error, Equation.parse text = .error error → error.Describes text) ∧
      ∀ text error, Expr.parse text = .error error → error.Describes text :=
  ⟨fun _ _ h ↦ Equation.describes_of_parse h, fun _ _ h ↦ Expr.describes_of_parse h⟩

/-- A parenthesis behind the equals sign is missed where the text ends, and a function misses its
own at the next word. -/
theorem parse_error_describes_of_parentheses :
    SyntaxError.Describes ⟨"y = (π)*(x", .missingRightParenthesis, 11⟩ "y = (π)*(x" ∧
      SyntaxError.Describes ⟨"1 + sin  x", .missingFunctionParenthesis .sin, 9⟩ "1 + sin  x" := by
  have hparenthesis : Equation.parse "y = (π)*(x" =
      .error ⟨"y = (π)*(x", .missingRightParenthesis, 11⟩ := by
    decide +kernel
  have hfunction : Expr.parse "1 + sin  x" =
      .error ⟨"1 + sin  x", .missingFunctionParenthesis .sin, 9⟩ := by
    decide +kernel
  exact ⟨parse_error_describes.1 _ _ hparenthesis, parse_error_describes.2 _ _ hfunction⟩

end ClosedForm
