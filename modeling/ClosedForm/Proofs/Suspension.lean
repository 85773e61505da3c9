import ClosedForm.Proofs.MalformedNumber
import ClosedForm.Proofs.RoundTrip

/-!
# Suspended readings

In front of a token the reader is suspended in a state. Every state can be completed: an operand if
one is due, and the closing parentheses that are missing (`State.exists_completion`). A reading
fails exactly in front of the first token that its state rejects (`readWhole_eq_error_iff`,
`readEquation_eq_error_iff`), and the first character of a rejected token decides about the fault,
unless the token is a number that breaks off (`State.Rejects.of_scan`).
-/

namespace ClosedForm

namespace Reader

open Grammar
open SyntaxError (Cause)
open Text (byteSize isWhiteSpace)

variable {limit : Nat} {state : State} {fault : Fault}

/-! ## Completions -/

/-- The expression is complete if the text ends here. -/
def State.IsComplete (state : State) : Prop :=
  ∃ e, state.finish = .ok e

theorem derives_of_isComplete {last : State} {tokens : List Token}
    (hrun : State.initial.run tokens = some last) (hlast : last.IsComplete) :
    ∃ e, Derives .expression tokens e := by
  obtain ⟨e, hfinish⟩ := hlast
  have hreads : Reads last tokens := reads_initial.run hrun
  have hend : last.Completes e [] := hfinish
  exact ⟨e, hreads.derives hend⟩

/-- Tokens that complete the expression, and a text for them that may stand behind any word. -/
structure State.Completion (state : State) (tokens : List Token) (cs : List Char) : Prop where
  layout : Layout tokens cs
  endsWord : EndsWord cs
  run : ∃ last, state.run tokens = some last ∧ last.IsComplete

theorem length_settle_le (level : Nat) (frames : List Frame) (e : Expr) :
    (settle level frames e).1.length ≤ frames.length := by
  induction frames generalizing e with
  | nil => exact Nat.le_refl 0
  | cons frame frames ih =>
    rw [settle]
    split
    · exact Nat.le_succ_of_le (ih _)
    · exact Nat.le_refl _

/-- Behind an operand, closing parentheses complete the expression. -/
theorem exists_completion_of_operator (frames : List Frame) (e : Expr) :
    ∃ tokens cs, State.Completion ⟨frames, .operator e⟩ tokens cs := by
  match hsettle : settle 1 frames e with
  | ([], whole) =>
    have hcomplete : State.IsComplete ⟨frames, .operator e⟩ :=
      ⟨whole, finish_eq_ok_iff.mpr ⟨e, rfl, hsettle⟩⟩
    exact ⟨[], [], .trailing (by simp), endsWord_nil, _, rfl, hcomplete⟩
  | (bracket :: outer, whole) =>
    -- A closing parenthesis takes the innermost bracket, so fewer frames are left to close.
    have hlength : outer.length < frames.length := by
      have hle := length_settle_le 1 frames e
      rw [hsettle] at hle
      exact hle
    obtain ⟨tokens, cs, hlayout, -, last, hrun, hcomplete⟩ :=
      exists_completion_of_operator outer (bracket.complete whole)
    have hstep : State.step ⟨frames, .operator e⟩ .closing =
        .next ⟨outer, .operator (bracket.complete whole)⟩ := by
      simp [State.step, readOperator, hsettle]
    exact ⟨.closing :: tokens, ')' :: cs, hlayout.symbol trivial rfl, endsWord_cons.mpr (by decide),
      last, (State.run_cons hstep tokens).trans hrun, hcomplete⟩
termination_by frames.length

/-- An operand in parentheses can stand wherever a parenthesis can be opened. -/
theorem exists_completion_of_bracket {bracket : Frame} (hbracket : bracket.precedence = 0)
    (hstep : state.step .opening = .next ⟨bracket :: state.frames, .start⟩) :
    ∃ tokens cs, state.Completion tokens cs := by
  -- The operand is `(1)`: unlike `1` alone, it may follow a word, and a function calls for it.
  have hone : Token.IsWellFormed (.number "1") :=
    IsNumeral.plain (d := '1') (by decide) (List.forall_mem_nil _)
  have hleaf : Follows .expression [.number "1"] (.number "1") :=
    (Follows.leaf (by simp) fun _ ↦ rfl).loosen (by decide)
  have hoperand : state.run [.opening, .number "1", .closing] =
      some ⟨state.frames, .operator (bracket.complete (.number "1"))⟩ := by
    rw [State.run_cons hstep]
    exact hleaf.run_closing hbracket state.frames
  obtain ⟨tokens, cs, hlayout, hend, last, hrun, hcomplete⟩ :=
    exists_completion_of_operator state.frames (bracket.complete (.number "1"))
  have hspells := (Spells.token hone).parenthesized tokens cs hend hlayout
  refine ⟨_, _, hspells, endsWord_cons.mpr (by decide), last, ?_, hcomplete⟩
  rw [List.singleton_append, List.cons_append, List.cons_append]
  exact (State.run_append hoperand tokens).trans hrun

/-- Every state can be completed. -/
theorem State.exists_completion (state : State) : ∃ tokens cs, state.Completion tokens cs := by
  obtain ⟨frames, stage⟩ := state
  cases stage with
  | start | operand => exact @exists_completion_of_bracket _ .parenthesis rfl rfl
  | argument f => exact @exists_completion_of_bracket _ (.call f) rfl rfl
  | operator completed => exact exists_completion_of_operator frames completed

/-! ## Failing -/

/-- A token that leads on is no token that is kept for an error. -/
theorem isFault_of_step {state next : State} {t : Token} (h : state.step t = .next next) :
    t.isFault = false := by
  obtain ⟨frames, stage⟩ := state
  cases stage with
  | start | operand | argument f =>
    cases t with
    | number text | name text | function f | operator op | equals | opening | closing => rfl
    | stray c | malformed broken => cases h
  | operator e =>
    have hread : readOperator frames e t = .next next := h
    rcases readOperator_eq_next hread with ⟨op, _, _, rfl, -⟩ | ⟨_, _, _, rfl, -⟩
    · rfl
    · rfl

theorem isFault_of_run {state last : State} {tokens : List Token}
    (h : state.run tokens = some last) : ∀ t ∈ tokens, t.isFault = false := by
  induction tokens generalizing state with
  | nil => simp
  | cons t tokens ih =>
    rw [State.run] at h
    split at h
    · next next hstep => exact List.forall_mem_cons.mpr ⟨isFault_of_step hstep, ih h⟩
    · cases h
    · cases h

/-- The expression cannot go on with the given tokens, at the end of the text if there are none. -/
inductive State.Refuses (limit : Nat) (state : State) : List Lexeme → Fault → Prop where
  | finish {cause : Cause} (h : state.finish = .error cause) : Refuses limit state [] ⟨cause, limit⟩
  | step {l : Lexeme} {rest : List Lexeme} {cause : Cause} (h : state.step l.token = .fail cause) :
      Refuses limit state (l :: rest) ⟨cause, l.start + cause.offset⟩

/-- A text cannot go on with the given tokens: the expression cannot, or it is complete and they are
not white space. An equals sign may follow it if `mayEquate`. -/
inductive State.Rejects (limit : Nat) (mayEquate : Bool) (state : State) :
    List Lexeme → Fault → Prop where
  | refuses {rest : List Lexeme} {fault : Fault} (h : state.Refuses limit rest fault) :
      Rejects limit mayEquate state rest fault
  | trailing {l : Lexeme} {rest : List Lexeme} {e : Expr} (h : state.step l.token = .stop e)
      (hequals : mayEquate = true → l.token ≠ .equals)
      (hend : ∃ other ∈ l :: rest, isEmptyToken other.token = false) :
      Rejects limit mayEquate state (l :: rest) ⟨trailingCause l.first, l.start⟩

theorem readExpr_of_refuses {middle : State} {read rest : List Lexeme}
    (h : state.run (read.map Lexeme.token) = some middle)
    (hrefuses : middle.Refuses limit rest fault) :
    readExpr limit state (read ++ rest) = .error fault := by
  induction read generalizing state with
  | nil =>
    obtain rfl := Option.some.inj h
    cases hrefuses with
    | finish hfinish => rw [List.append_nil, readExpr, hfinish]
    | step hstep => rw [List.nil_append, readExpr, hstep]
  | cons lexeme read ih =>
    rw [List.map_cons, State.run] at h
    split at h
    · next next hstep =>
      rw [List.cons_append, readExpr, hstep]
      exact ih h
    · cases h
    · cases h

theorem exists_run_of_readExpr_eq_error {lexemes : List Lexeme}
    (h : readExpr limit state lexemes = .error fault) :
    ∃ read middle rest, lexemes = read ++ rest ∧
      state.run (read.map Lexeme.token) = some middle ∧ middle.Refuses limit rest fault := by
  induction lexemes generalizing state with
  | nil =>
    rw [readExpr] at h
    split at h
    · cases h
    · next hfinish =>
      cases h
      exact ⟨[], state, [], rfl, rfl, .finish hfinish⟩
  | cons lexeme lexemes ih =>
    rw [readExpr] at h
    split at h
    · next next hstep =>
      obtain ⟨read, middle, rest, rfl, hrun, hrefuses⟩ := ih h
      have hrun' : state.run ((lexeme :: read).map Lexeme.token) = some middle := by
        rw [List.map_cons, State.run_cons hstep]
        exact hrun
      exact ⟨lexeme :: read, middle, rest, rfl, hrun', hrefuses⟩
    · cases h
    · next hstep =>
      cases h
      exact ⟨[], state, lexeme :: lexemes, rfl, rfl, .step hstep⟩

theorem readEnd_eq_error_iff {trailing : List Lexeme} :
    readEnd trailing = .error fault ↔
      ∃ l rest, trailing = l :: rest ∧ (∃ other ∈ l :: rest, isEmptyToken other.token = false) ∧
        fault = ⟨trailingCause l.first, l.start⟩ := by
  cases trailing with
  | nil => simp [readEnd]
  | cons l rest =>
    rw [readEnd]
    split
    · next hall =>
      apply iff_of_false (by simp)
      rintro ⟨_, _, hcons, ⟨other, hother, hnot⟩, -⟩
      rw [← hcons] at hother
      rw [List.all_eq_true.mp hall other hother] at hnot
      cases hnot
    · next hall =>
      simp only [List.all_eq_true, not_forall, Bool.not_eq_true] at hall
      constructor
      · intro h
        obtain ⟨other, hother, hempty⟩ := hall
        exact ⟨l, rest, rfl, ⟨other, hother, hempty⟩, (Except.error.inj h).symm⟩
      · rintro ⟨_, _, hcons, -, rfl⟩
        obtain ⟨rfl, rfl⟩ := List.cons.inj hcons
        rfl

/-- A reading of an expression fails in front of what its state rejects. -/
theorem readWhole_eq_error_iff {lexemes : List Lexeme} :
    readWhole limit lexemes = .error fault ↔
      ∃ read state rest, lexemes = read ++ rest ∧
        State.initial.run (read.map Lexeme.token) = some state ∧
        state.Rejects limit false rest fault := by
  constructor
  · intro h
    rcases bind_eq_error_iff.mp h with hread | ⟨⟨e, trailing⟩, hread, hbehind⟩
    · obtain ⟨read, state, rest, rfl, hrun, hrefuses⟩ := exists_run_of_readExpr_eq_error hread
      exact ⟨read, state, rest, rfl, hrun, .refuses hrefuses⟩
    · rcases bind_eq_error_iff.mp hbehind with hend | ⟨_, -, hwhole⟩
      · obtain ⟨l, rest, rfl, hother, rfl⟩ := readEnd_eq_error_iff.mp hend
        obtain ⟨read, state, rfl, hrun, hstop⟩ := exists_run_of_readExpr hread
        exact ⟨read, state, l :: rest, rfl, hrun, .trailing hstop (by simp) hother⟩
      · cases hwhole
  · rintro ⟨read, state, rest, rfl, hrun, hrejects⟩
    apply bind_eq_error_iff.mpr
    cases hrejects with
    | refuses hrefuses => exact .inl (readExpr_of_refuses hrun hrefuses)
    | trailing hstop hequals hother =>
      have hend := readEnd_eq_error_iff.mpr ⟨_, _, rfl, hother, rfl⟩
      exact .inr ⟨_, readExpr_of_run hrun hstop, bind_eq_error_iff.mpr (.inl hend)⟩

/-- A reading of an equation fails on its left-hand side, where an equals sign may follow, or behind
its equals sign. -/
theorem readEquation_eq_error_iff {lexemes : List Lexeme} :
    readEquation limit lexemes = .error fault ↔
      (∃ read state rest, lexemes = read ++ rest ∧
        State.initial.run (read.map Lexeme.token) = some state ∧
        state.Rejects limit true rest fault) ∨
      ∃ left equals right e, lexemes = left ++ equals :: right ∧ equals.token = .equals ∧
        Derives .expression (left.map Lexeme.token) e ∧ readWhole limit right = .error fault := by
  constructor
  · intro h
    rcases bind_eq_error_iff.mp h with hread | ⟨⟨e, trailing⟩, hread, hbehind⟩
    · obtain ⟨read, state, rest, rfl, hrun, hrefuses⟩ := exists_run_of_readExpr_eq_error hread
      exact .inl ⟨read, state, rest, rfl, hrun, .refuses hrefuses⟩
    · dsimp only at hbehind
      split at hbehind
      · next c start right =>
        rcases bind_eq_error_iff.mp hbehind with hright | ⟨_, -, hq⟩
        · obtain ⟨left, rfl, hleft⟩ := derives_of_readExpr hread
          exact .inr ⟨left, _, right, e, rfl, rfl, hleft, hright⟩
        · cases hq
      · next hequals =>
        rcases bind_eq_error_iff.mp hbehind with hend | ⟨_, -, hq⟩
        · obtain ⟨⟨t, c, start⟩, rest, rfl, hother, rfl⟩ := readEnd_eq_error_iff.mp hend
          obtain ⟨read, state, rfl, hrun, hstop⟩ := exists_run_of_readExpr hread
          have hnot : t ≠ .equals := by
            rintro rfl
            exact hequals c start rest rfl
          exact .inl ⟨read, state, _, rfl, hrun, .trailing hstop (fun _ ↦ hnot) hother⟩
        · cases hq
  · rintro (⟨read, state, rest, rfl, hrun, hrejects⟩ |
      ⟨left, ⟨t, c, start⟩, right, e, rfl, rfl, hleft, hright⟩)
    · apply bind_eq_error_iff.mpr
      cases hrejects with
      | refuses hrefuses => exact .inl (readExpr_of_refuses hrun hrefuses)
      | @trailing l rest e hstop hequals hother =>
        refine .inr ⟨_, readExpr_of_run hrun hstop, ?_⟩
        dsimp only
        split
        · next heq =>
          obtain ⟨rfl, -⟩ := List.cons.inj heq
          exact absurd rfl (hequals rfl)
        · exact bind_eq_error_iff.mpr (.inl (readEnd_eq_error_iff.mpr ⟨_, _, rfl, hother, rfl⟩))
    · have hread := readExpr_of_derives_of_equals limit hleft c start right
      exact bind_eq_error_iff.mpr (.inr ⟨_, hread, bind_eq_error_iff.mpr (.inl hright)⟩)

/-! ## Where a fault shows -/

theorem offset_strayCause (c : Char) : (strayCause c).offset = 0 := by
  unfold strayCause
  split <;> rfl

theorem offset_numberCause (fault : NumberFault) :
    (numberCause fault).offset = byteSize fault.read.toList := by
  cases fault <;> rfl

/-- Where an operand is due, a word is refused only if it is a number that breaks off. -/
theorem readOperand_eq_fail {frames : List Frame} {t : Token} {cause : Cause}
    (h : readOperand frames t = .fail cause) :
    (cause.offset = 0 ∧ ¬t.isWordlike = true) ∨
      ∃ broken, t = .malformed broken ∧ cause = numberCause broken := by
  cases t with
  | number text | name text | function f | opening => cases h
  | operator op | equals | closing =>
    obtain rfl := Verdict.fail.inj h
    exact .inl ⟨rfl, Bool.false_ne_true⟩
  | stray c =>
    obtain rfl := Verdict.fail.inj h
    exact .inl ⟨offset_strayCause c, Bool.false_ne_true⟩
  | malformed broken => exact .inr ⟨broken, rfl, (Verdict.fail.inj h).symm⟩

theorem readOperator_eq_fail {frames : List Frame} {e : Expr} {t : Token} {cause : Cause}
    (h : readOperator frames e t = .fail cause) : cause = .missingRightParenthesis := by
  unfold readOperator at h
  split at h
  · cases h
  · split at h
    · cases h
    · cases h
    · exact (Verdict.fail.inj h).symm

/-- Behind an operand one word is like another. -/
theorem readOperator_of_isWordlike {t other : Token} (ht : t.isWordlike = true)
    (hother : other.isWordlike = true) (frames : List Frame) (e : Expr) :
    readOperator frames e t = readOperator frames e other := by
  have hname (t : Token) (ht : t.isWordlike = true) :
      readOperator frames e t = readOperator frames e (.name "") := by
    match hsettle : settle 1 frames e with
    | ([], whole) | (bracket :: outer, whole) =>
      cases t with
      | number text | name text | function f | malformed broken => simp [readOperator, hsettle]
      | operator op | equals | opening | closing | stray c => cases ht
  exact (hname t ht).trans (hname other hother).symm

/-- A token is refused at its start, and then any other word would be refused instead of a word; or
it is a number that breaks off, and then any number would lead on. -/
theorem step_eq_fail {t : Token} {cause : Cause} (h : state.step t = .fail cause) :
    (cause.offset = 0 ∧ (t.isWordlike = true →
      ∀ other : Token, other.isWordlike = true → state.step other = .fail cause)) ∨
    ∃ broken, t = .malformed broken ∧ cause = numberCause broken ∧
      ∀ text, state.step (.number text) = .next ⟨state.frames, .operator (.number text)⟩ := by
  obtain ⟨frames, stage⟩ := state
  cases stage with
  | start =>
    by_cases hminus : t = .operator .minus
    · subst hminus
      cases h
    · rw [step_start_of_ne hminus] at h
      rcases readOperand_eq_fail h with ⟨hoffset, hsymbol⟩ | ⟨broken, ht, hcause⟩
      · exact .inl ⟨hoffset, fun hword ↦ absurd hword hsymbol⟩
      · exact .inr ⟨broken, ht, hcause, fun _ ↦ rfl⟩
  | operand =>
    rcases readOperand_eq_fail h with ⟨hoffset, hsymbol⟩ | ⟨broken, ht, hcause⟩
    · exact .inl ⟨hoffset, fun hword ↦ absurd hword hsymbol⟩
    · exact .inr ⟨broken, ht, hcause, fun _ ↦ rfl⟩
  | argument f =>
    have hargument (other : Token) (hother : other ≠ .opening) :
        State.step ⟨frames, .argument f⟩ other = .fail (.missingFunctionParenthesis f) := by
      cases other <;> first | rfl | exact absurd rfl hother
    by_cases hopening : t = .opening
    · subst hopening
      cases h
    · rw [hargument t hopening] at h
      obtain rfl := Verdict.fail.inj h
      refine .inl ⟨rfl, fun _ other hother ↦ hargument other ?_⟩
      rintro rfl
      cases hother
  | operator e =>
    obtain rfl := readOperator_eq_fail h
    exact .inl ⟨rfl, fun ht other hother ↦ (readOperator_of_isWordlike hother ht frames e).trans h⟩

namespace State.Rejects

variable {mayEquate : Bool}

theorem position_of_nil (h : state.Rejects limit mayEquate [] fault) : fault.position = limit := by
  cases h with
  | refuses h =>
    cases h
    rfl

/-- The first character of a rejected token decides about the fault, unless the token is a number
that breaks off where a number may stand. -/
theorem of_scan {c : Char} {cs : List Char} {start : Nat} {rest : List Lexeme}
    (h : state.Rejects limit mayEquate (⟨(Token.scan c cs).1, c, start⟩ :: rest) fault) :
    (fault.position = start ∧ (isWhiteSpace c = false → ∀ limit ds more,
      state.Rejects limit mayEquate (⟨(Token.scan c ds).1, c, start⟩ :: more) fault)) ∨
    ∃ broken, (Token.scan c cs).1 = .malformed broken ∧
      fault = ⟨numberCause broken, start + byteSize broken.read.toList⟩ ∧
      state.step (.malformed broken) = .fail (numberCause broken) ∧
      ∀ text, state.step (.number text) = .next ⟨state.frames, .operator (.number text)⟩ := by
  cases h with
  | refuses h =>
    cases h with
    | @step _ _ cause hstep =>
      rcases step_eq_fail hstep with ⟨hoffset, hwords⟩ | ⟨broken, ht, rfl, hnumber⟩
      · refine .inl ⟨by simp [hoffset], fun _ limit ds more ↦ .refuses (.step ?_)⟩
        rcases Token.scan_fst_eq_or c cs ds with hsame | ⟨hword, hother⟩
        · rwa [← hsame]
        · exact hwords hword _ hother
      · rw [ht] at hstep
        exact .inr ⟨broken, ht, by rw [offset_numberCause], hstep, hnumber⟩
  | @trailing _ _ e hstop hequals hend =>
    -- White space is spared here: what else follows it decides whether it spoils the text.
    refine .inl ⟨rfl, fun hc limit ds more ↦ ?_⟩
    have hempty : isEmptyToken (Token.scan c ds).1 = false := by
      apply Bool.eq_false_iff.mpr
      rwa [ne_eq, Token.isEmptyToken_scan_iff, Bool.not_eq_true]
    have hsame : state.step (Token.scan c ds).1 = .stop e ∧
        (mayEquate = true → (Token.scan c ds).1 ≠ .equals) := by
      rcases Token.scan_fst_eq_or c cs ds with hsame | ⟨hword, hother⟩
      · rw [← hsame]
        exact ⟨hstop, hequals⟩
      · obtain ⟨completed, hstage, hsettle, -⟩ := step_eq_stop_iff.mp hstop
        have hsymbol (symbol : Token) (h : symbol.isWordlike = false) :
            (Token.scan c ds).1 ≠ symbol := by
          rintro rfl
          exact absurd (h.symm.trans hother) (by decide)
        have hoperator (op : BinaryOp) : (Token.scan c ds).1 ≠ .operator op := hsymbol _ rfl
        exact ⟨step_eq_stop_iff.mpr ⟨completed, hstage, hsettle, hoperator⟩,
          fun _ ↦ hsymbol _ rfl⟩
    exact .trailing hsame.1 hsame.2 ⟨_, List.mem_cons_self, hempty⟩

end State.Rejects

end Reader

end ClosedForm
