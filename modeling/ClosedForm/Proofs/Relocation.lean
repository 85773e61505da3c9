import ClosedForm.Proofs.Suspension

/-!
# Tokens at other places

The reader looks at tokens and never at their places, which only tell where a fault shows. When
the tokens are taken to other places, the same is read behind them and a fault goes along
(`readWhole_relocate`, `readEquation_relocate`), as long as a token that breaks off inside keeps
the distances within it.
-/

namespace ClosedForm

def Lexeme.relocate (place : Nat → Nat) (l : Lexeme) : Lexeme :=
  ⟨l.token, l.first, place l.start⟩

namespace Reader

open SyntaxError (Cause)

def Fault.relocate (place : Nat → Nat) (fault : Fault) : Fault :=
  ⟨fault.cause, place fault.position⟩

/-- Distances within the tokens that are kept for an error stay what they are. -/
def KeepsDistances (place : Nat → Nat) (lexemes : List Lexeme) : Prop :=
  ∀ l ∈ lexemes, l.token.isFault = true → ∀ distance,
    place (l.start + distance) = place l.start + distance

variable {place : Nat → Nat} {lexemes : List Lexeme}

theorem KeepsDistances.mono {fewer : List Lexeme} (h : KeepsDistances place lexemes)
    (hfewer : ∀ l ∈ fewer, l ∈ lexemes) : KeepsDistances place fewer :=
  fun l hl ↦ h l (hfewer l hl)

theorem keepsDistances_of_isFault (h : ∀ l ∈ lexemes, l.token.isFault = false) :
    KeepsDistances place lexemes := by
  intro l hl hfault
  rw [h l hl] at hfault
  cases hfault

/-- Only tokens that are kept for an error are refused behind their start. -/
theorem offset_of_step_eq_fail {state : State} {t : Token} {cause : Cause}
    (ht : t.isFault = false) (h : state.step t = .fail cause) : cause.offset = 0 := by
  rcases step_eq_fail h with ⟨hoffset, -⟩ | ⟨broken, rfl, -⟩
  · exact hoffset
  · cases ht

theorem KeepsDistances.add_offset {l : Lexeme} {rest : List Lexeme} {state : State} {cause : Cause}
    (h : KeepsDistances place (l :: rest)) (hstep : state.step l.token = .fail cause) :
    place (l.start + cause.offset) = place l.start + cause.offset := by
  cases hfault : l.token.isFault with
  | true => exact h l List.mem_cons_self hfault cause.offset
  | false =>
    rw [offset_of_step_eq_fail hfault hstep]
    rfl

theorem readExpr_relocate (h : KeepsDistances place lexemes) (limit : Nat) (state : State) :
    readExpr (place limit) state (lexemes.map (.relocate place)) =
      ((readExpr limit state lexemes).map fun read ↦
        (read.1, read.2.map (.relocate place))).mapError (.relocate place) := by
  induction lexemes generalizing state with
  | nil =>
    rw [List.map_nil, readExpr, readExpr]
    cases state.finish <;> rfl
  | cons l rest ih =>
    have hrest := h.mono fun other hother ↦ List.mem_cons_of_mem l hother
    have htoken : (l.relocate place).token = l.token := rfl
    rw [List.map_cons, readExpr, readExpr, htoken]
    cases hstep : state.step l.token with
    | next next => exact ih hrest next
    | stop e => rfl
    | fail cause =>
      have hposition := h.add_offset hstep
      simp only [Except.map, Except.mapError, Fault.relocate, hposition]
      rfl

theorem readEnd_relocate (trailing : List Lexeme) :
    readEnd (trailing.map (.relocate place)) = (readEnd trailing).mapError (.relocate place) := by
  cases trailing with
  | nil => rfl
  | cons l rest =>
    have hall : ((l :: rest).map (Lexeme.relocate place)).all (isEmptyToken ·.token) =
        (l :: rest).all (isEmptyToken ·.token) := List.all_map
    rw [List.map_cons] at hall ⊢
    rw [readEnd, readEnd, hall]
    split <;> rfl

theorem readWhole_relocate (h : KeepsDistances place lexemes) (limit : Nat) :
    readWhole (place limit) (lexemes.map (.relocate place)) =
      (readWhole limit lexemes).mapError (.relocate place) := by
  rw [readWhole, readWhole, readExpr_relocate h]
  cases readExpr limit .initial lexemes with
  | error fault => rfl
  | ok read =>
    have hend : readEnd (read.2.map (.relocate place)) = _ := readEnd_relocate read.2
    simp only [Except.map, Except.mapError, bind, Except.bind, hend]
    cases readEnd read.2 <;> rfl

theorem readEquation_relocate (h : KeepsDistances place lexemes) (limit : Nat) :
    readEquation (place limit) (lexemes.map (.relocate place)) =
      (readEquation limit lexemes).mapError (.relocate place) := by
  rw [readEquation, readEquation, readExpr_relocate h]
  cases hread : readExpr limit .initial lexemes with
  | error fault => rfl
  | ok read =>
    obtain ⟨left, trailing⟩ := read
    obtain ⟨before, -, hlexemes, -, -⟩ := exists_run_of_readExpr hread
    have hend : readEnd (trailing.map (.relocate place)) = _ := readEnd_relocate trailing
    simp only [Except.map, Except.mapError, bind, Except.bind]
    cases trailing with
    | nil => rfl
    | cons l rest =>
      have hrest : ∀ other ∈ rest, other ∈ lexemes := fun other hother ↦ by simp [hlexemes, hother]
      have hright := readWhole_relocate (h.mono hrest) limit
      obtain ⟨t, c, start⟩ := l
      cases t with
      | equals =>
        simp only [List.map_cons, Lexeme.relocate, hright]
        cases readWhole limit rest <;> rfl
      | number text | name text | function f | operator op | opening | closing | stray x
      | malformed broken =>
        rw [List.map_cons] at hend ⊢
        simp only [Lexeme.relocate] at hend ⊢
        rw [hend]
        cases readEnd _ <;> rfl

/-! ## The place of a fault -/

variable {limit : Nat} {fault : Fault}

/-- Well-formed tokens are refused at their start, and where the text ends if it ends too early. -/
theorem State.Rejects.position_cases {state : State} {mayEquate : Bool} {rest : List Lexeme}
    (h : state.Rejects limit mayEquate rest fault) (hrest : ∀ l ∈ rest, l.token.isFault = false) :
    fault.position = limit ∨ ∃ l ∈ rest, fault.position = l.start := by
  cases h with
  | refuses h =>
    cases h with
    | finish hfinish => exact .inl rfl
    | @step l rest cause hstep =>
      have hoffset := offset_of_step_eq_fail (hrest l List.mem_cons_self) hstep
      exact .inr ⟨l, List.mem_cons_self, by simp [hoffset]⟩
  | @trailing l rest e hstop hequals hend => exact .inr ⟨l, List.mem_cons_self, rfl⟩

theorem position_of_readWhole (hlexemes : ∀ l ∈ lexemes, l.token.isFault = false)
    (h : readWhole limit lexemes = .error fault) :
    fault.position = limit ∨ ∃ l ∈ lexemes, fault.position = l.start := by
  obtain ⟨read, state, rest, rfl, -, hrejects⟩ := readWhole_eq_error_iff.mp h
  rcases hrejects.position_cases (List.forall_mem_append.mp hlexemes).2 with hend | ⟨l, hl, hstart⟩
  · exact .inl hend
  · exact .inr ⟨l, List.mem_append_right read hl, hstart⟩

theorem position_of_readEquation (hlexemes : ∀ l ∈ lexemes, l.token.isFault = false)
    (h : readEquation limit lexemes = .error fault) :
    fault.position = limit ∨ ∃ l ∈ lexemes, fault.position = l.start := by
  rcases readEquation_eq_error_iff.mp h with
    ⟨read, state, rest, rfl, -, hrejects⟩ | ⟨left, equals, right, e, rfl, -, -, hright⟩
  · rcases hrejects.position_cases (List.forall_mem_append.mp hlexemes).2 with
      hend | ⟨l, hl, hstart⟩
    · exact .inl hend
    · exact .inr ⟨l, List.mem_append_right read hl, hstart⟩
  · have hbehind := (List.forall_mem_cons.mp (List.forall_mem_append.mp hlexemes).2).2
    rcases position_of_readWhole hbehind hright with hend | ⟨l, hl, hstart⟩
    · exact .inl hend
    · exact .inr ⟨l, by simp [hl], hstart⟩

end Reader

end ClosedForm
