import ClosedForm.Proofs.Cursors

/-!
# Sessions with a cursor

A cursor is used step by step: it looks at what is next, goes on, looks back at what it passed, is
saved and goes back to a saved copy. Whatever the steps are, it stands on a character boundary of
the text it began with, what it passed and what is ahead of it make up that text, and each step
moves it as far as the characters it passes (`session_keeps_text`). A cursor that keeps a byte
offset answers the same in every session, and so it never cuts the text inside a character.
-/

namespace ClosedForm.Text

/-! ## Steps -/

/-- The operations of a kind of cursors. They have no result where they fail for good. -/
structure CursorKind (γ : Type) where
  start : String → γ
  isAtEnd : γ → Bool
  rest? : γ → Option String
  peek? : γ → Option Char
  consume? : γ → Option (Except SyntaxError (Char × γ))
  skipBlanks? : γ → Option γ
  consumedSince? : γ → Nat → Option String

def Cursor.kind : CursorKind Cursor where
  start := start
  isAtEnd := isAtEnd
  rest? c := some c.rest
  peek? c := some c.peek
  consume? c := some c.consume
  skipBlanks? c := some c.skipBlanks
  consumedSince? := consumedSince?

def OffsetCursor.kind : CursorKind OffsetCursor where
  start text := ⟨text, 0⟩
  isAtEnd := isAtEnd
  rest? := rest?
  peek? := peek?
  consume? := consume?
  skipBlanks? := skipBlanks?
  consumedSince? := consumedSince?

namespace Cursor

/-- One use of a cursor. -/
inductive Step where
  | isAtEnd
  | rest
  | peek
  | consume
  | skipBlanks
  | consumedSince (earlier : Nat)
  | save
  /-- Goes back to a saved copy, if there are as many. -/
  | restore (copy : Nat)

inductive Answer where
  | done
  | yesNo (holds : Bool)
  | character (c : Char)
  | part (part : String)
  | refused (error : SyntaxError)
  /-- The step failed for good. -/
  | panic
  deriving DecidableEq

structure Session (γ : Type) where
  current : γ
  /-- The saved copies, the oldest one first. -/
  copies : List γ

variable {γ : Type}

/-- What a step answers, and the cursor and its copies after it. -/
def Step.run (kind : CursorKind γ) (state : Session γ) : Step → Answer × Session γ
  | isAtEnd => (.yesNo (kind.isAtEnd state.current), state)
  | rest => ((kind.rest? state.current).elim .panic .part, state)
  | peek => ((kind.peek? state.current).elim .panic .character, state)
  | consume =>
    match kind.consume? state.current with
    | none => (.panic, state)
    | some (.error error) => (.refused error, state)
    | some (.ok (passed, next)) => (.character passed, { state with current := next })
  | skipBlanks =>
    match kind.skipBlanks? state.current with
    | none => (.panic, state)
    | some next => (.done, { state with current := next })
  | consumedSince earlier =>
    ((kind.consumedSince? state.current earlier).elim .panic .part, state)
  | save => (.done, { state with copies := state.copies ++ [state.current] })
  | restore copy => (.done, { state with current := state.copies[copy]?.getD state.current })

/-- What the steps answer one after the other, and the cursor and its copies after all of them. -/
def run (kind : CursorKind γ) (state : Session γ) : List Step → List Answer × Session γ
  | [] => ([], state)
  | step :: steps =>
    let first := step.run kind state
    let others := run kind first.2 steps
    (first.1 :: others.1, others.2)

/-- The steps of a cursor that is at the beginning of the text at first. -/
def session (kind : CursorKind γ) (text : String) (steps : List Step) :
    List Answer × Session γ :=
  run kind ⟨kind.start text, []⟩ steps

/-! ## Copies -/

section

variable (kind : CursorKind γ) (state : Session γ)

theorem run_append (steps more : List Step) :
    (run kind state (steps ++ more)).2 = (run kind (run kind state steps).2 more).2 := by
  induction steps generalizing state with
  | nil => rfl
  | cons step steps ih => exact ih (step.run kind state).2

theorem copies_isPrefix_of_step (step : Step) :
    state.copies <+: (step.run kind state).2.copies := by
  cases step with
  | save => exact List.prefix_append state.copies [state.current]
  | consume => rw [Step.run]; split <;> exact List.prefix_rfl
  | skipBlanks => rw [Step.run]; split <;> exact List.prefix_rfl
  | isAtEnd | rest | peek | consumedSince | restore => exact List.prefix_rfl

theorem copies_isPrefix (steps : List Step) :
    state.copies <+: (run kind state steps).2.copies := by
  induction steps generalizing state with
  | nil => exact List.prefix_rfl
  | cons step steps ih => exact (copies_isPrefix_of_step kind state step).trans (ih _)

/-- A saved copy is what is restored, whatever was done in between. -/
theorem restore_save (more : List Step) :
    (run kind state (.save :: more ++ [.restore state.copies.length])).2.current =
      state.current := by
  have hkept : state.copies ++ [state.current] <+: (run kind state (.save :: more)).2.copies :=
    copies_isPrefix kind (Step.save.run kind state).2 more
  obtain ⟨later, hcopies⟩ := hkept
  have hcopy : (run kind state (.save :: more)).2.copies[state.copies.length]? =
      some state.current := by
    rw [← hcopies, List.append_assoc, List.getElem?_append_right (Nat.le_refl _), Nat.sub_self]
    rfl
  rw [run_append, run, run, Step.run, hcopy, Option.getD_some]

end

/-! ## The text -/

/-- The cursor and all its copies are on the same text. -/
structure Session.IsOn (state : Session Cursor) (text : String) : Prop where
  current : state.current.text = text
  copies : ∀ copy ∈ state.copies, copy.text = text

variable {state : Session Cursor} {text : String}

theorem Session.IsOn.step (h : state.IsOn text) (step : Step) :
    (step.run kind state).2.IsOn text := by
  cases step with
  | isAtEnd | rest | peek | consumedSince => exact h
  | consume =>
    rw [Step.run]
    split
    · exact h
    · exact h
    · next passed next hconsume =>
      exact ⟨(text_of_consume (Option.some.inj hconsume)).trans h.current, h.copies⟩
  | skipBlanks => exact ⟨(text_skipBlanks state.current).trans h.current, h.copies⟩
  | save =>
    refine ⟨h.current, fun copy hcopy ↦ ?_⟩
    rcases List.mem_append.mp hcopy with hcopy | hcopy
    · exact h.copies copy hcopy
    · rw [List.mem_singleton.mp hcopy]
      exact h.current
  | restore copy =>
    refine ⟨?_, h.copies⟩
    cases hcopy : state.copies[copy]? with
    | none => simpa [Step.run, hcopy] using h.current
    | some saved =>
      have hsaved := h.copies saved (List.mem_of_getElem? hcopy)
      simpa [Step.run, hcopy] using hsaved

theorem Session.IsOn.run (h : state.IsOn text) (steps : List Step) :
    (Cursor.run kind state steps).2.IsOn text := by
  induction steps generalizing state with
  | nil => exact h
  | cons step steps ih => exact ih (h.step step)

theorem isOn_session (text : String) (steps : List Step) :
    (session kind text steps).2.IsOn text := by
  have hstart : Session.IsOn ⟨start text, []⟩ text := ⟨text_start text, by simp⟩
  exact hstart.run steps

/-! ## Sessions with offsets -/

def Session.map {δ : Type} (view : γ → δ) (state : Session γ) : Session δ :=
  ⟨view state.current, state.copies.map view⟩

theorem run_toOffset_step (state : Session Cursor) (step : Step) :
    step.run OffsetCursor.kind (state.map toOffset) =
      (step.run kind state).map id (Session.map toOffset) := by
  cases step with
  | isAtEnd | rest | peek | skipBlanks | consumedSince =>
    simp [Step.run, Session.map, kind, OffsetCursor.kind]
  | consume =>
    cases hnext : state.current.consume <;>
      simp [Step.run, Session.map, kind, OffsetCursor.kind, hnext, Except.map]
  | save => simp [Step.run, Session.map]
  | restore copy => simp [Step.run, Session.map, List.getElem?_map, Option.getD_map]

theorem run_toOffset (state : Session Cursor) (steps : List Step) :
    run OffsetCursor.kind (state.map toOffset) steps =
      (run kind state steps).map id (Session.map toOffset) := by
  induction steps generalizing state with
  | nil => rfl
  | cons step steps ih =>
    rw [run, run, run_toOffset_step, Prod.map_snd, ih]
    rfl

/-- A cursor with an offset answers as one without in every session. -/
theorem session_toOffset (text : String) (steps : List Step) :
    session OffsetCursor.kind text steps =
      (session kind text steps).map id (Session.map toOffset) := by
  have hstart : Session.map toOffset ⟨start text, []⟩ = ⟨⟨text, 0⟩, []⟩ := by
    rw [Session.map, toOffset, text_start]
    rfl
  have hrun := run_toOffset ⟨start text, []⟩ steps
  rwa [hstart] at hrun

/-! ## What a session keeps -/

section

variable {next : Cursor} {passed : Char} {error : SyntaxError} {earlier : Nat} {part : String}

theorem run_consume_of_ok (h : state.current.consume = .ok (passed, next)) :
    Step.consume.run kind state = (.character passed, { state with current := next }) := by
  simp [Step.run, kind, h]

theorem run_consume_of_error (h : state.current.consume = .error error) :
    Step.consume.run kind state = (.refused error, state) := by
  simp [Step.run, kind, h]

theorem run_consumedSince_of_some (h : state.current.consumedSince? earlier = some part) :
    (Step.consumedSince earlier).run kind state = (.part part, state) := by
  simp [Step.run, kind, h]

theorem run_consumedSince_of_none (h : state.current.consumedSince? earlier = none) :
    (Step.consumedSince earlier).run kind state = (.panic, state) := by
  simp [Step.run, kind, h]

end

/-- In every session the text stays as it is and the cursor stands between two of its characters. -/
theorem session_keeps_text (text : String) (steps : List Step) :
    let state := (session kind text steps).2
    let now := state.current
    let outcome (step : Step) := step.run kind state
    (now.text = text ∧ now.position ≤ text.utf8ByteSize ∧ IsBoundary text now.position ∧
      ∃ passed, now.consumedSince? 0 = some passed ∧ passed ++ now.rest = text) ∧
    (now.isAtEnd = true ↔ now.position = text.utf8ByteSize) ∧
    (now.isAtEnd = false →
      ∃ next, outcome .consume = (.character now.peek, { state with current := next }) ∧
        now.Passes (String.singleton now.peek) next) ∧
    (now.isAtEnd = true → now.peek = endOfInput ∧
      outcome .consume = (.refused ⟨text, .cursorExhausted, text.utf8ByteSize⟩, state)) ∧
    (∃ blanks next, outcome .skipBlanks = (.done, { state with current := next }) ∧
      now.Passes blanks next ∧ (∀ d ∈ blanks.toList, d = ' ' ∨ d = '\t') ∧
      ∀ d ∈ next.rest.toList.head?, ¬(d = ' ' ∨ d = '\t')) ∧
    (outcome .isAtEnd = (.yesNo now.isAtEnd, state) ∧ outcome .peek = (.character now.peek, state) ∧
      outcome .rest = (.part now.rest, state)) ∧
    (∀ earlier, if earlier ≤ now.position ∧ IsBoundary text earlier then
        ∃ part, outcome (.consumedSince earlier) = (.part part, state) ∧
          part.toUTF8 = text.toUTF8.extract earlier now.position
      else
        outcome (.consumedSince earlier) = (.panic, state)) ∧
    (∀ more, (session kind text
      (steps ++ .save :: more ++ [.restore state.copies.length])).2.current = now) ∧
    session OffsetCursor.kind text steps =
      ((session kind text steps).1, state.map toOffset) := by
  intro state now outcome
  have htext : now.text = text := (isOn_session text steps).current
  refine ⟨⟨htext, htext ▸ now.position_le, htext ▸ now.isBoundary_position, ?_⟩,
    htext ▸ now.isAtEnd_iff, fun hahead ↦ ?_, fun hend ↦ ?_, ?_, ⟨rfl, rfl, rfl⟩,
    fun earlier ↦ ?_, fun more ↦ ?_, session_toOffset text steps⟩
  · exact ⟨now.passed, now.consumedSince?_zero, now.text_eq.symm.trans htext⟩
  · obtain ⟨next, hconsume, hpasses⟩ := exists_consume hahead
    exact ⟨next, run_consume_of_ok hconsume, hpasses⟩
  · obtain ⟨hpeek, hconsume⟩ := consume_of_isAtEnd hend
    rw [htext] at hconsume
    exact ⟨hpeek, run_consume_of_error hconsume⟩
  · obtain ⟨blanks, hpasses, hblanks, hnext⟩ := now.exists_skipBlanks
    exact ⟨blanks, now.skipBlanks, rfl, hpasses, hblanks, hnext⟩
  · split
    · next hcut =>
      rw [← htext] at hcut
      obtain ⟨part, hpart, hbytes⟩ := exists_consumedSince? hcut
      rw [htext] at hbytes
      exact ⟨part, run_consumedSince_of_some hpart, hbytes⟩
    · next hcut =>
      rw [← htext] at hcut
      exact run_consumedSince_of_none (consumedSince?_eq_none hcut)
  · rw [session, List.append_assoc, run_append]
    exact restore_save kind state more

/-- A NUL in the text looks like its end and is passed as any other character, and looking back to
an offset inside a character fails. -/
theorem session_keeps_text_of_nul :
    let text := "π\x00 \tb"
    let state := (session kind text [.consume]).2
    let nul := state.current
    nul.isAtEnd = false ∧ nul.peek = endOfInput ∧
      (∃ next,
        Step.consume.run kind state = (.character endOfInput, { state with current := next }) ∧
          next.position = nul.position + 1) ∧
      (Step.consumedSince 1).run kind state = (.panic, state) ∧
      (session kind text [.consume, .save, .consume, .skipBlanks, .restore 0]).2.current = nul := by
  intro text state nul
  obtain ⟨-, -, hconsume, -, -, -, hlookback, hrestore, -⟩ := session_keeps_text text [.consume]
  have hahead : nul.isAtEnd = false := by decide
  have hpeek : nul.peek = endOfInput := by decide
  have hsize : (String.singleton nul.peek).utf8ByteSize = 1 := by decide
  have hcopies : state.copies.length = 0 := by decide
  have hinside : ¬(1 ≤ nul.position ∧ IsBoundary text 1) := by decide
  obtain ⟨next, hrun, hpasses⟩ := hconsume hahead
  refine ⟨hahead, hpeek, ⟨next, hpeek ▸ hrun, hsize ▸ hpasses.position⟩, ?_, ?_⟩
  · have houtcome := hlookback 1
    rwa [if_neg hinside] at houtcome
  · have hback := hrestore [.consume, .skipBlanks]
    rwa [hcopies] at hback

end Cursor

end ClosedForm.Text
