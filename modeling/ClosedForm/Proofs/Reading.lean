import ClosedForm.Proofs.Grammar
import ClosedForm.Proofs.Results

/-!
# The reader follows the grammar

What the frames of a state hold are the derivations begun and not finished, and each token adds to
them (`Reads.step`): when the reader stops, the tokens behind it derive the expression it returns.
Conversely the reader gets through the tokens of a derivation to a state whose frames settle to the
derived tree (`follows_of_derives`). A text is therefore read as an equation exactly if it is a
layout of tokens that derive it (`parse_eq_ok_iff_layout`).
-/

namespace ClosedForm

namespace Reader

open Grammar

/-! ## Running through tokens -/

/-- The state behind some tokens, if each of them leads on. -/
def State.run (state : State) : List Token → Option State
  | [] => some state
  | t :: tokens =>
    match state.step t with
    | .next next => next.run tokens
    | .stop _ | .fail _ => none

theorem State.run_cons {state next : State} {t : Token} (h : state.step t = .next next)
    (tokens : List Token) : state.run (t :: tokens) = next.run tokens := by
  rw [run, h]

theorem State.run_append {state middle : State} {tokens : List Token}
    (h : state.run tokens = some middle) (more : List Token) :
    state.run (tokens ++ more) = middle.run more := by
  induction tokens generalizing state with
  | nil =>
    obtain rfl := Option.some.inj h
    rfl
  | cons t tokens ih =>
    rw [run] at h
    split at h
    · next next hstep =>
      rw [List.cons_append, run_cons hstep]
      exact ih h
    · cases h
    · cases h

theorem State.exists_run_of_append {state last : State} {tokens more : List Token}
    (h : state.run (tokens ++ more) = some last) :
    ∃ middle, state.run tokens = some middle ∧ middle.run more = some last := by
  induction tokens generalizing state with
  | nil => exact ⟨state, rfl, h⟩
  | cons t tokens ih =>
    rw [List.cons_append, State.run] at h
    split at h
    · next next hstep =>
      obtain ⟨middle, hrun, hmore⟩ := ih h
      exact ⟨middle, (State.run_cons hstep tokens).trans hrun, hmore⟩
    · cases h
    · cases h

/-- The expression is complete in front of the given tokens. -/
def State.Completes (state : State) (e : Expr) (rest : List Lexeme) : Prop :=
  match rest with
  | [] => state.finish = .ok e
  | lexeme :: _ => state.step lexeme.token = .stop e

theorem readExpr_of_run {limit : Nat} {state middle : State} {lexemes rest : List Lexeme} {e : Expr}
    (h : state.run (lexemes.map Lexeme.token) = some middle) (hend : middle.Completes e rest) :
    readExpr limit state (lexemes ++ rest) = .ok (e, rest) := by
  induction lexemes generalizing state with
  | nil =>
    obtain rfl := Option.some.inj h
    cases rest with
    | nil => rw [List.append_nil, readExpr, show state.finish = .ok e from hend]
    | cons lexeme rest =>
      rw [List.nil_append, readExpr, show state.step lexeme.token = .stop e from hend]
  | cons lexeme lexemes ih =>
    rw [List.map_cons, State.run] at h
    split at h
    · next next hstep =>
      rw [List.cons_append, readExpr, hstep]
      exact ih h
    · cases h
    · cases h

theorem exists_run_of_readExpr {limit : Nat} {state : State} {lexemes rest : List Lexeme} {e : Expr}
    (h : readExpr limit state lexemes = .ok (e, rest)) :
    ∃ read middle, lexemes = read ++ rest ∧
      state.run (read.map Lexeme.token) = some middle ∧ middle.Completes e rest := by
  induction lexemes generalizing state with
  | nil =>
    rw [readExpr] at h
    split at h
    · next hfinish =>
      cases h
      exact ⟨[], state, rfl, rfl, hfinish⟩
    · cases h
  | cons lexeme lexemes ih =>
    rw [readExpr] at h
    split at h
    · next next hstep =>
      obtain ⟨read, middle, rfl, hrun, hend⟩ := ih h
      have hrun' : state.run ((lexeme :: read).map Lexeme.token) = some middle := by
        rw [List.map_cons, State.run_cons hstep]
        exact hrun
      exact ⟨lexeme :: read, middle, rfl, hrun', hend⟩
    · next hstep =>
      cases h
      exact ⟨[], state, rfl, rfl, hstep⟩
    · cases h

/-! ## From states to derivations -/

/-- The innermost frame, if there is one, holds its operand less tightly than `level`. -/
def Below (level : Nat) (frames : List Frame) : Prop :=
  ∀ frame ∈ frames.head?, frame.precedence < level

theorem below_cons {level : Nat} {frame : Frame} {frames : List Frame} :
    Below level (frame :: frames) ↔ frame.precedence < level := by
  simp [Below]

/-- The tokens that frames have been built from. -/
inductive Pending : List Frame → List Token → Prop where
  | nil : Pending [] []
  | negation {frames : List Frame} {tokens : List Token} (h : Pending frames tokens)
      (hbelow : Below 1 frames) : Pending (.negation :: frames) (tokens ++ [.operator .minus])
  | operation {frames : List Frame} {tokens ls : List Token} {l : Expr} {op : BinaryOp}
      (h : Pending frames tokens) (hbelow : Below op.precedence frames)
      (hl : Derives (.ofOp op) ls l) :
      Pending (.operation l op :: frames) (tokens ++ (ls ++ [.operator op]))
  | parenthesis {frames : List Frame} {tokens : List Token} (h : Pending frames tokens) :
      Pending (.parenthesis :: frames) (tokens ++ [.opening])
  | call (f : Fn) {frames : List Frame} {tokens : List Token} (h : Pending frames tokens) :
      Pending (.call f :: frames) (tokens ++ [.function f, .opening])

/-- The tokens that a state may have behind it. -/
inductive Reads : State → List Token → Prop where
  | start {frames : List Frame} {tokens : List Token} (h : Pending frames tokens)
      (hbelow : Below 1 frames) : Reads ⟨frames, .start⟩ tokens
  | operand {frames : List Frame} {tokens : List Token} (h : Pending frames tokens) :
      Reads ⟨frames, .operand⟩ tokens
  | argument (f : Fn) {frames : List Frame} {tokens : List Token} (h : Pending frames tokens) :
      Reads ⟨frames, .argument f⟩ (tokens ++ [.function f])
  | operator {frames : List Frame} {tokens es : List Token} {e : Expr} (h : Pending frames tokens)
      (he : Derives .primary es e) : Reads ⟨frames, .operator e⟩ (tokens ++ es)

theorem settle_of_below {level : Nat} {frames : List Frame} (h : Below level frames) (e : Expr) :
    settle level frames e = (frames, e) := by
  cases frames with
  | nil => rfl
  | cons frame frames => rw [settle, if_neg (Nat.not_le_of_lt (h frame rfl))]

theorem settle_of_le {level : Nat} {frame : Frame} (h : level ≤ frame.precedence)
    (frames : List Frame) (e : Expr) :
    settle level (frame :: frames) e = settle level frames (frame.complete e) := by
  rw [settle, if_pos h]

/-- Settling an operand completes derivations, and the frames it leaves hold less tightly. -/
theorem exists_derives_of_settle {level : Nat} (hlevel : 0 < level) {category : Category}
    {frames outer : List Frame} {tokens es : List Token} {e whole : Expr}
    (hpending : Pending frames tokens) (he : Derives category es e)
    (htight : level ≤ category.level) (hbelow : Below category.level frames)
    (hsettle : settle level frames e = (outer, whole)) :
    ∃ before ws tighter, Pending outer before ∧ Derives tighter ws whole ∧
      level ≤ tighter.level ∧ Below level outer ∧ before ++ ws = tokens ++ es := by
  induction frames generalizing tokens es e category with
  | nil =>
    obtain ⟨rfl, rfl⟩ := Prod.mk.inj hsettle
    exact ⟨tokens, es, category, hpending, he, htight, by simp [Below], rfl⟩
  | cons frame frames ih =>
    by_cases hstop : Below level (frame :: frames)
    · rw [settle_of_below hstop] at hsettle
      obtain ⟨rfl, rfl⟩ := Prod.mk.inj hsettle
      exact ⟨tokens, es, category, hpending, he, htight, hstop, rfl⟩
    have hle : level ≤ frame.precedence := Nat.le_of_not_lt (mt below_cons.mpr hstop)
    have htighter : frame.precedence < category.level := below_cons.mp hbelow
    rw [settle_of_le hle] at hsettle
    cases hpending with
    | negation hpending hframes =>
      have hterm : Derives .term _ e := he.loosen htighter
      obtain ⟨before, ws, tighter, hbefore, hws, hlevels, hbelow, htokens⟩ :=
        ih hpending hterm.negation hle hframes hsettle
      exact ⟨before, ws, tighter, hbefore, hws, hlevels, hbelow, by simpa using htokens⟩
    | @operation _ _ _ _ op hpending hframes hl =>
      have hr : Derives (.rightOfOp op) _ e :=
        he.loosen (by rw [Category.level_rightOfOp]; exact htighter)
      have hwhole := hl.operation hr
      have hle' : level ≤ (Category.ofOp op).level := by rw [Category.level_ofOp]; exact hle
      rw [← Category.level_ofOp] at hframes
      obtain ⟨before, ws, tighter, hbefore, hws, hlevels, hbelow, htokens⟩ :=
        ih hpending hwhole hle' hframes hsettle
      exact ⟨before, ws, tighter, hbefore, hws, hlevels, hbelow, by simpa using htokens⟩
    | parenthesis hpending | call f hpending =>
      exact absurd hle (Nat.not_le_of_lt hlevel)

theorem reads_readOperand {frames : List Frame} {tokens : List Token} {t : Token} {next : State}
    (h : Pending frames tokens) (hstep : readOperand frames t = .next next) :
    Reads next (tokens ++ [t]) := by
  cases t with
  | number text =>
    obtain rfl := Verdict.next.inj hstep
    exact .operator h (.number text)
  | name text =>
    obtain rfl := Verdict.next.inj hstep
    exact .operator h (.name text)
  | function f =>
    obtain rfl := Verdict.next.inj hstep
    exact .argument f h
  | opening =>
    obtain rfl := Verdict.next.inj hstep
    exact .start h.parenthesis (below_cons.mpr Nat.one_pos)
  | operator op | equals | closing | stray c | malformed fault => cases hstep

theorem precedence_pos (op : BinaryOp) : 0 < op.precedence := by
  cases op <;> decide

theorem below_primary (frames : List Frame) : Below Category.primary.level frames := by
  intro frame _
  cases frame with
  | negation | parenthesis | call f => simp [Frame.precedence, Category.level]
  | operation l op => cases op <;> simp [Frame.precedence, BinaryOp.precedence, Category.level]

/-- The ways on from a completed operand: an operator takes what it binds less tightly than, and a
closing parenthesis takes all up to its partner. -/
theorem readOperator_eq_next {frames : List Frame} {e : Expr} {t : Token} {next : State}
    (h : readOperator frames e t = .next next) :
    (∃ op outer whole, t = .operator op ∧ settle op.precedence frames e = (outer, whole) ∧
        next = ⟨.operation whole op :: outer, .operand⟩) ∨
      (∃ bracket outer whole, t = .closing ∧ settle 1 frames e = (bracket :: outer, whole) ∧
        next = ⟨outer, .operator (bracket.complete whole)⟩) := by
  unfold readOperator at h
  split at h
  · next op => exact .inl ⟨op, _, _, rfl, rfl, (Verdict.next.inj h).symm⟩
  · split at h
    · cases h
    · next bracket outer whole hsettle hclosing =>
      exact .inr ⟨bracket, outer, whole, rfl, hsettle, (Verdict.next.inj h).symm⟩
    · cases h

theorem reads_readOperator {frames : List Frame} {tokens es : List Token} {e : Expr} {t : Token}
    {next : State} (h : Pending frames tokens) (he : Derives .primary es e)
    (hstep : readOperator frames e t = .next next) : Reads next (tokens ++ es ++ [t]) := by
  rcases readOperator_eq_next hstep with
    ⟨op, outer, whole, rfl, hsettle, rfl⟩ | ⟨bracket, outer, whole, rfl, hsettle, rfl⟩
  · obtain ⟨before, ws, tighter, hbefore, hws, htight, hbelow, htokens⟩ :=
      exists_derives_of_settle (precedence_pos op) h he (below_primary [.operation e op] _ rfl).le
        (below_primary frames) hsettle
    have hl : Derives (.ofOp op) ws whole := hws.loosen (by rwa [Category.level_ofOp])
    rw [← htokens, List.append_assoc]
    exact .operand (hbefore.operation hbelow hl)
  · obtain ⟨before, ws, tighter, hbefore, hws, htight, hbelow, htokens⟩ :=
      exists_derives_of_settle Nat.one_pos h he (by decide) (below_primary frames) hsettle
    have hinner : Derives .expression ws whole := hws.loosen htight
    rw [← htokens]
    cases hbefore with
    | negation h hframes => exact absurd (hbelow _ rfl) (by decide)
    | operation h hframes hl => exact absurd (hbelow _ rfl) (Nat.not_lt_of_le (precedence_pos _))
    | parenthesis h => simpa [Frame.complete] using Reads.operator h hinner.group
    | call f h => simpa [Frame.complete] using Reads.operator h (hinner.call f)

theorem step_start_of_ne {frames : List Frame} {t : Token} (h : t ≠ .operator .minus) :
    State.step ⟨frames, .start⟩ t = readOperand frames t := by
  cases t with
  | operator op =>
    cases op with
    | minus => exact absurd rfl h
    | plus | times | divide | power => rfl
  | number text | name text | function f | equals | opening | closing | stray c | malformed fault =>
    rfl

theorem step_argument_eq_next {frames : List Frame} {f : Fn} {t : Token} {next : State}
    (h : State.step ⟨frames, .argument f⟩ t = .next next) :
    t = .opening ∧ next = ⟨.call f :: frames, .start⟩ := by
  cases t with
  | opening => exact ⟨rfl, (Verdict.next.inj h).symm⟩
  | number text | name text | function g | operator op | equals | closing | stray c
  | malformed fault => cases h

/-- A token that leads on is added to the tokens behind the state. -/
theorem Reads.step {state next : State} {tokens : List Token} {t : Token} (h : Reads state tokens)
    (hstep : state.step t = .next next) : Reads next (tokens ++ [t]) := by
  cases h with
  | start h hbelow =>
    by_cases hminus : t = .operator .minus
    · subst hminus
      obtain rfl := Verdict.next.inj hstep
      exact .operand (h.negation hbelow)
    · rw [step_start_of_ne hminus] at hstep
      exact reads_readOperand h hstep
  | operand h => exact reads_readOperand h hstep
  | argument f h =>
    obtain ⟨rfl, rfl⟩ := step_argument_eq_next hstep
    simpa using Reads.start (h.call f) (below_cons.mpr Nat.one_pos)
  | operator h he => exact reads_readOperator h he hstep

theorem Reads.run {state last : State} {tokens more : List Token} (h : Reads state tokens)
    (hrun : state.run more = some last) : Reads last (tokens ++ more) := by
  induction more generalizing state tokens with
  | nil =>
    obtain rfl := Option.some.inj hrun
    simpa using h
  | cons t more ih =>
    rw [State.run] at hrun
    split at hrun
    · next next hstep => simpa using ih (h.step hstep) hrun
    · cases hrun
    · cases hrun

theorem readOperand_ne_stop (frames : List Frame) (t : Token) (e : Expr) :
    readOperand frames t ≠ .stop e := by
  cases t <;> simp [readOperand]

theorem readOperator_eq_stop_iff {frames : List Frame} {completed e : Expr} {t : Token} :
    readOperator frames completed t = .stop e ↔
      settle 1 frames completed = ([], e) ∧ ∀ op, t ≠ .operator op := by
  unfold readOperator
  split
  · simp
  · next hop =>
    split
    · next whole hsettle =>
      rw [hsettle]
      simpa using fun _ ↦ hop
    · next hsettle => simp [hsettle]
    · next hsettle _ => simp [hsettle]

theorem step_eq_stop_iff {state : State} {t : Token} {e : Expr} :
    state.step t = .stop e ↔
      ∃ completed, state.stage = .operator completed ∧
        settle 1 state.frames completed = ([], e) ∧ ∀ op, t ≠ .operator op := by
  obtain ⟨frames, stage⟩ := state
  cases stage with
  | start =>
    apply iff_of_false _ (by simp)
    intro hstep
    by_cases hminus : t = .operator .minus
    · rw [hminus] at hstep
      cases hstep
    · rw [step_start_of_ne hminus] at hstep
      exact readOperand_ne_stop frames t e hstep
  | operand => exact iff_of_false (readOperand_ne_stop frames t e) (by simp)
  | argument f =>
    apply iff_of_false _ (by simp)
    intro hstep
    cases t <;> cases hstep
  | operator completed =>
    have hread : State.step ⟨frames, .operator completed⟩ t = readOperator frames completed t := rfl
    simp [hread, readOperator_eq_stop_iff]

theorem finish_eq_ok_iff {state : State} {e : Expr} :
    state.finish = .ok e ↔
      ∃ completed, state.stage = .operator completed ∧
        settle 1 state.frames completed = ([], e) := by
  obtain ⟨frames, stage⟩ := state
  cases stage with
  | start | operand | argument f => simp [State.finish]
  | operator completed =>
    simp only [State.finish]
    split
    · next whole hsettle => simp [hsettle]
    · next hsettle => simp [hsettle]

/-- An expression is complete if it settles all frames and no operator follows. -/
theorem completes_iff {state : State} {e : Expr} {rest : List Lexeme} :
    state.Completes e rest ↔
      ∃ completed, state.stage = .operator completed ∧
        settle 1 state.frames completed = ([], e) ∧
        ∀ lexeme ∈ rest.head?, ∀ op, lexeme.token ≠ .operator op := by
  cases rest with
  | nil => simpa [State.Completes] using finish_eq_ok_iff
  | cons lexeme rest => simpa [State.Completes] using step_eq_stop_iff

theorem Reads.derives {state : State} {tokens : List Token} {e : Expr} {rest : List Lexeme}
    (h : Reads state tokens) (hend : state.Completes e rest) : Derives .expression tokens e := by
  obtain ⟨completed, hstage, hsettle, -⟩ := completes_iff.mp hend
  cases h with
  | start | operand | argument => cases hstage
  | operator h he =>
    obtain rfl := Stage.operator.inj hstage
    obtain ⟨before, ws, tighter, hbefore, hws, htight, hbelow, htokens⟩ :=
      exists_derives_of_settle Nat.one_pos h he (by decide) (below_primary _) hsettle
    cases hbefore
    rw [← htokens]
    exact hws.loosen htight

/-! ## From derivations to states -/

/-- The stages at which a part of an equation may start. -/
def Stage.Starts (category : Category) : Stage → Prop
  | .start => True
  | .operand => category ≠ .expression
  | .argument _ | .operator _ => False

/-- The reader gets through the tokens to a completed operand, from any frames that leave them
alone, and the frames it opens on the way settle to the tree. -/
def Follows (category : Category) (tokens : List Token) (e : Expr) : Prop :=
  ∀ frames (stage : Stage), Below category.level frames → stage.Starts category →
    ∃ inner last, State.run ⟨frames, stage⟩ tokens = some ⟨inner, .operator last⟩ ∧
      ∀ level ≤ category.level, settle level inner last = settle level frames e

theorem step_of_starts {frames : List Frame} {stage : Stage} {category : Category} {t : Token}
    (hstage : stage.Starts category) (ht : t ≠ .operator .minus) :
    State.step ⟨frames, stage⟩ t = readOperand frames t := by
  cases stage with
  | start => exact step_start_of_ne ht
  | operand => rfl
  | argument f | operator completed => cases hstage

namespace Follows

variable {tokens : List Token} {e : Expr}

/-- A leaf is an operand by itself. -/
theorem leaf {t : Token} (ht : t ≠ .operator .minus)
    (hread : ∀ frames, readOperand frames t = .next ⟨frames, .operator e⟩) :
    Follows .primary [t] e := by
  intro frames stage _ hstage
  have hstep : State.step ⟨frames, stage⟩ t = .next ⟨frames, .operator e⟩ :=
    (step_of_starts hstage ht).trans (hread frames)
  exact ⟨frames, e, State.run_cons hstep [], fun _ _ ↦ rfl⟩

/-- A closing parenthesis completes the bracket around an expression. -/
theorem run_closing (h : Follows .expression tokens e) {bracket : Frame}
    (hbracket : bracket.precedence = 0) (frames : List Frame) :
    State.run ⟨bracket :: frames, .start⟩ (tokens ++ [.closing]) =
      some ⟨frames, .operator (bracket.complete e)⟩ := by
  have hbelow : Below 1 (bracket :: frames) := below_cons.mpr (by omega)
  obtain ⟨inner, last, hrun, hsettle⟩ := h (bracket :: frames) .start hbelow trivial
  have hclosed : settle 1 inner last = (bracket :: frames, e) := by
    rw [hsettle 1 (Nat.le_refl 1)]
    exact settle_of_below hbelow e
  have hstep : State.step ⟨inner, .operator last⟩ .closing =
      .next ⟨frames, .operator (bracket.complete e)⟩ := by
    simp [State.step, readOperator, hclosed]
  rw [State.run_append hrun, State.run_cons hstep, State.run]

theorem call (f : Fn) (h : Follows .expression tokens e) :
    Follows .primary (.function f :: .opening :: (tokens ++ [.closing])) (.call f e) := by
  intro frames stage _ hstage
  have hstep : State.step ⟨frames, stage⟩ (.function f) = .next ⟨frames, .argument f⟩ :=
    step_of_starts hstage (by simp)
  refine ⟨frames, .call f e, ?_, fun _ _ ↦ rfl⟩
  rw [State.run_cons hstep]
  exact h.run_closing rfl frames

theorem group (h : Follows .expression tokens e) :
    Follows .primary (.opening :: (tokens ++ [.closing])) e := by
  intro frames stage _ hstage
  have hstep : State.step ⟨frames, stage⟩ .opening = .next ⟨.parenthesis :: frames, .start⟩ :=
    step_of_starts hstage (by simp)
  refine ⟨frames, e, ?_, fun _ _ ↦ rfl⟩
  rw [State.run_cons hstep]
  exact h.run_closing rfl frames

theorem loosen {tight loose : Category} (h : Follows tight tokens e)
    (hlevel : loose.level < tight.level) : Follows loose tokens e := by
  intro frames stage hbelow hstage
  have htight : stage.Starts tight := by
    cases stage with
    | start => trivial
    | operand =>
      rintro rfl
      cases loose <;> simp [Category.level] at hlevel
    | argument f | operator completed => cases hstage
  have hbelow' : Below tight.level frames := fun frame hframe ↦ (hbelow frame hframe).trans hlevel
  obtain ⟨inner, last, hrun, hsettle⟩ := h frames stage hbelow' htight
  refine ⟨inner, last, hrun, ?_⟩
  intro level hle
  exact hsettle level (hle.trans hlevel.le)

theorem negation (h : Follows .term tokens e) :
    Follows .expression (.operator .minus :: tokens) (.neg e) := by
  intro frames stage hbelow hstage
  cases stage with
  | start =>
    obtain ⟨inner, last, hrun, hsettle⟩ :=
      h (.negation :: frames) .operand (below_cons.mpr (by decide)) (by simp [Stage.Starts])
    refine ⟨inner, last, hrun, ?_⟩
    intro level hlevel
    calc
      settle level inner last = settle level (.negation :: frames) e :=
        hsettle level (Nat.le_succ_of_le hlevel)
      _ = settle level frames (.neg e) := settle_of_le hlevel frames e
  | operand => exact absurd rfl hstage
  | argument f | operator completed => cases hstage

/-- An operator takes what binds at least as tightly as its left operand. -/
theorem operation (op : BinaryOp) {ls rs : List Token} {l r : Expr}
    (hl : Follows (.ofOp op) ls l) (hr : Follows (.rightOfOp op) rs r) :
    Follows (.ofOp op) (ls ++ .operator op :: rs) (.binary op l r) := by
  intro frames stage hbelow hstage
  have hlevelLeft := Category.level_ofOp op
  have hlevelRight := Category.level_rightOfOp op
  obtain ⟨inner, last, hrun, hsettle⟩ := hl frames stage hbelow hstage
  have hleft : settle op.precedence inner last = (frames, l) := by
    rw [hsettle op.precedence hlevelLeft.ge]
    exact settle_of_below (hlevelLeft ▸ hbelow) l
  have hstep : State.step ⟨inner, .operator last⟩ (.operator op) =
      .next ⟨.operation l op :: frames, .operand⟩ := by
    simp [State.step, readOperator, hleft]
  have hbelowRight : Below (Category.rightOfOp op).level (.operation l op :: frames) := by
    rw [below_cons, hlevelRight]
    exact Nat.lt_succ_self op.precedence
  have hstageRight : Stage.operand.Starts (.rightOfOp op) := by
    cases op <;> simp [Stage.Starts, Category.rightOfOp]
  obtain ⟨inner', last', hrun', hsettle'⟩ :=
    hr (.operation l op :: frames) .operand hbelowRight hstageRight
  refine ⟨inner', last', ?_, ?_⟩
  · rw [State.run_append hrun, State.run_cons hstep, hrun']
  · intro level hlevel
    rw [hlevelLeft] at hlevel
    calc
      settle level inner' last' = settle level (.operation l op :: frames) r :=
        hsettle' level (by omega)
      _ = settle level frames (.binary op l r) := settle_of_le hlevel frames r

end Follows

theorem follows_of_derives {category : Category} {tokens : List Token} {e : Expr}
    (h : Derives category tokens e) : Follows category tokens e := by
  induction h with
  | number text => exact .leaf (by simp) fun _ ↦ rfl
  | name text => exact .leaf (by simp) fun _ ↦ rfl
  | call f h ih => exact ih.call f
  | group h ih => exact ih.group
  | factor h ih | term h ih | expression h ih => exact ih.loosen (by decide)
  | negation h ih => exact ih.negation
  | power hl hr ihl ihr => exact .operation .power ihl ihr
  | product hop hl hr ihl ihr =>
    rcases hop with rfl | rfl
    · exact .operation .times ihl ihr
    · exact .operation .divide ihl ihr
  | sum hop hl hr ihl ihr =>
    rcases hop with rfl | rfl
    · exact .operation .plus ihl ihr
    · exact .operation .minus ihl ihr

/-! ## Reading an expression -/

theorem reads_initial : Reads .initial [] :=
  .start .nil (by simp [Below])

theorem derives_of_readExpr {limit : Nat} {lexemes rest : List Lexeme} {e : Expr}
    (h : readExpr limit .initial lexemes = .ok (e, rest)) :
    ∃ read, lexemes = read ++ rest ∧ Derives .expression (read.map Lexeme.token) e := by
  obtain ⟨read, last, rfl, hrun, hend⟩ := exists_run_of_readExpr h
  have hreads : Reads last (read.map Lexeme.token) := reads_initial.run hrun
  exact ⟨read, rfl, hreads.derives hend⟩

theorem readExpr_of_derives (limit : Nat) {lexemes rest : List Lexeme} {e : Expr}
    (h : Derives .expression (lexemes.map Lexeme.token) e)
    (hrest : ∀ lexeme ∈ rest.head?, ∀ op, lexeme.token ≠ .operator op) :
    readExpr limit .initial (lexemes ++ rest) = .ok (e, rest) := by
  obtain ⟨inner, last, hrun, hsettle⟩ := follows_of_derives h [] .start (by simp [Below]) trivial
  have hwhole : settle 1 inner last = ([], e) := hsettle 1 (Nat.le_refl 1)
  exact readExpr_of_run hrun (completes_iff.mpr ⟨last, rfl, hwhole, hrest⟩)

/-- An equals sign ends an expression. -/
theorem readExpr_of_derives_of_equals (limit : Nat) {lexemes : List Lexeme} {e : Expr}
    (h : Derives .expression (lexemes.map Lexeme.token) e) (c : Char) (start : Nat)
    (rest : List Lexeme) :
    readExpr limit .initial (lexemes ++ ⟨.equals, c, start⟩ :: rest) =
      .ok (e, ⟨.equals, c, start⟩ :: rest) := by
  apply readExpr_of_derives limit h
  intro lexeme hhead op
  obtain rfl := Option.some.inj hhead
  simp

theorem readEnd_eq_ok_iff {trailing : List Lexeme} :
    readEnd trailing = .ok () ↔ ∀ lexeme ∈ trailing, isEmptyToken lexeme.token = true := by
  cases trailing with
  | nil => simp [readEnd]
  | cons lexeme rest =>
    rw [readEnd]
    split
    · next hall => simpa using hall
    · next hall => simpa using hall

theorem ne_operator_of_isEmptyToken {t : Token} (h : isEmptyToken t = true) (op : BinaryOp) :
    t ≠ .operator op := by
  rintro rfl
  cases h

/-- White space ends an expression. -/
theorem readExpr_of_derives_of_isEmptyToken (limit : Nat) {lexemes rest : List Lexeme} {e : Expr}
    (h : Derives .expression (lexemes.map Lexeme.token) e)
    (hempty : ∀ lexeme ∈ rest, isEmptyToken lexeme.token = true) :
    readExpr limit .initial (lexemes ++ rest) = .ok (e, rest) := by
  apply readExpr_of_derives limit h
  intro lexeme hhead
  exact ne_operator_of_isEmptyToken (hempty lexeme (List.mem_of_mem_head? hhead))

/-- What is read as an expression derives it, and white space follows. -/
theorem readWhole_eq_ok_iff {limit : Nat} {lexemes : List Lexeme} {e : Expr} :
    readWhole limit lexemes = .ok e ↔
      ∃ tokens trailing, lexemes.map Lexeme.token = tokens ++ trailing ∧
        Derives .expression tokens e ∧ ∀ t ∈ trailing, isEmptyToken t = true := by
  constructor
  · intro h
    obtain ⟨⟨whole, rest⟩, hread, hbehind⟩ := bind_eq_ok_iff.mp h
    obtain ⟨⟨⟩, hend, hwhole⟩ := bind_eq_ok_iff.mp hbehind
    obtain rfl := Except.ok.inj hwhole
    obtain ⟨read, rfl, hderives⟩ := derives_of_readExpr hread
    have hempty : ∀ t ∈ rest.map Lexeme.token, isEmptyToken t = true := by
      simpa using readEnd_eq_ok_iff.mp hend
    exact ⟨_, rest.map Lexeme.token, List.map_append, hderives, hempty⟩
  · rintro ⟨tokens, trailing, htokens, hderives, hempty⟩
    obtain ⟨read, rest, rfl, rfl, rfl⟩ := List.map_eq_append_iff.mp htokens
    have hspaces : ∀ lexeme ∈ rest, isEmptyToken lexeme.token = true := by simpa using hempty
    have hread := readExpr_of_derives_of_isEmptyToken limit hderives hspaces
    have hend : readEnd rest = .ok () := readEnd_eq_ok_iff.mpr hspaces
    exact bind_eq_ok_iff.mpr ⟨(e, rest), hread, bind_eq_ok_iff.mpr ⟨(), hend, rfl⟩⟩

theorem exists_derivesEquation_of_readEquation {limit : Nat} {lexemes : List Lexeme} {q : Equation}
    (h : readEquation limit lexemes = .ok q) :
    ∃ tokens trailing, lexemes.map Lexeme.token = tokens ++ trailing ∧
      DerivesEquation tokens q ∧ ∀ t ∈ trailing, isEmptyToken t = true := by
  obtain ⟨⟨left, rest⟩, hread, hbehind⟩ := bind_eq_ok_iff.mp h
  obtain ⟨read, rfl, hleft⟩ := derives_of_readExpr hread
  dsimp only at hbehind
  split at hbehind
  · next c start rest =>
    obtain ⟨right, hright, hq⟩ := bind_eq_ok_iff.mp hbehind
    obtain rfl := Except.ok.inj hq
    obtain ⟨tokens, trailing, htokens, hderives, hempty⟩ := readWhole_eq_ok_iff.mp hright
    refine ⟨_, trailing, ?_, .equality hleft hderives, hempty⟩
    simp [htokens]
  · obtain ⟨⟨⟩, hend, hq⟩ := bind_eq_ok_iff.mp hbehind
    obtain rfl := Except.ok.inj hq
    have hempty : ∀ t ∈ rest.map Lexeme.token, isEmptyToken t = true := by
      simpa using readEnd_eq_ok_iff.mp hend
    exact ⟨_, rest.map Lexeme.token, List.map_append, .expression hleft, hempty⟩

theorem readEquation_of_derivesEquation (limit : Nat) {lexemes : List Lexeme} {q : Equation}
    {tokens trailing : List Token} (htokens : lexemes.map Lexeme.token = tokens ++ trailing)
    (hderives : DerivesEquation tokens q) (hempty : ∀ t ∈ trailing, isEmptyToken t = true) :
    readEquation limit lexemes = .ok q := by
  cases hderives with
  | @expression _ e hderives =>
    obtain ⟨read, rest, rfl, rfl, rfl⟩ := List.map_eq_append_iff.mp htokens
    have hspaces : ∀ lexeme ∈ rest, isEmptyToken lexeme.token = true := by simpa using hempty
    have hread := readExpr_of_derives_of_isEmptyToken limit hderives hspaces
    refine bind_eq_ok_iff.mpr ⟨(e, rest), hread, ?_⟩
    dsimp only
    split
    · cases hspaces _ List.mem_cons_self
    · exact bind_eq_ok_iff.mpr ⟨(), readEnd_eq_ok_iff.mpr hspaces, rfl⟩
  | @equality _ _ l r hl hr =>
    rw [List.append_assoc, List.cons_append] at htokens
    obtain ⟨read, rest, rfl, rfl, hrest⟩ := List.map_eq_append_iff.mp htokens
    obtain ⟨⟨t, c, start⟩, more, rfl, rfl, hmore⟩ := List.map_eq_cons_iff.mp hrest
    have hread := readExpr_of_derives_of_equals limit hl c start more
    have hright : readWhole limit more = .ok r :=
      readWhole_eq_ok_iff.mpr ⟨_, trailing, hmore, hr, hempty⟩
    exact bind_eq_ok_iff.mpr ⟨_, hread, bind_eq_ok_iff.mpr ⟨r, hright, rfl⟩⟩

end Reader

/-! ## Texts -/

open Grammar

namespace Expr

theorem exists_layout_of_parse {text : String} {e : Expr} (h : Expr.parse text = .ok e) :
    ∃ tokens, Layout tokens text.toList ∧ Derives .expression tokens e := by
  obtain ⟨tokens, trailing, htokens, hderives, hempty⟩ :=
    Reader.readWhole_eq_ok_iff.mp (mapError_eq_ok_iff.mp h)
  have hlayout := (layout_iff 0).mpr ⟨hderives.isFault, trailing, htokens, hempty⟩
  exact ⟨tokens, hlayout, hderives⟩

theorem parse_of_layout {text : String} {tokens : List Token} {e : Expr}
    (hlayout : Layout tokens text.toList) (hderives : Derives .expression tokens e) :
    Expr.parse text = .ok e := by
  obtain ⟨-, trailing, htokens, hempty⟩ := (layout_iff 0).mp hlayout
  exact mapError_eq_ok_iff.mpr
    (Reader.readWhole_eq_ok_iff.mpr ⟨tokens, trailing, htokens, hderives, hempty⟩)

end Expr

namespace Equation

theorem exists_layout_of_parse {text : String} {q : Equation} (h : Equation.parse text = .ok q) :
    ∃ tokens, Layout tokens text.toList ∧ DerivesEquation tokens q := by
  obtain ⟨tokens, trailing, htokens, hderives, hempty⟩ :=
    Reader.exists_derivesEquation_of_readEquation (mapError_eq_ok_iff.mp h)
  have hlayout := (layout_iff 0).mpr ⟨hderives.isFault, trailing, htokens, hempty⟩
  exact ⟨tokens, hlayout, hderives⟩

theorem parse_of_layout {text : String} {tokens : List Token} {q : Equation}
    (hlayout : Layout tokens text.toList) (hderives : DerivesEquation tokens q) :
    Equation.parse text = .ok q := by
  obtain ⟨-, trailing, htokens, hempty⟩ := (layout_iff 0).mp hlayout
  exact mapError_eq_ok_iff.mpr
    (Reader.readEquation_of_derivesEquation _ htokens hderives hempty)

/-- A text is read as an equation exactly if it is a layout of tokens that derive the equation. -/
theorem parse_eq_ok_iff_layout {text : String} {q : Equation} :
    Equation.parse text = .ok q ↔
      ∃ tokens, Layout tokens text.toList ∧ DerivesEquation tokens q := by
  constructor
  · exact exists_layout_of_parse
  · rintro ⟨tokens, hlayout, hderives⟩
    exact parse_of_layout hlayout hderives

end Equation

end ClosedForm
