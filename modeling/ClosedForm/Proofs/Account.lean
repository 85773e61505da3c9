import ClosedForm.Proofs.Partition
import ClosedForm.Proofs.Paths
import Mathlib.Data.List.TakeWhile

/-!
# The account of a solution

The log on the relations of an equation has one block a variable. A variable that has a formula is
led to it node by node: the lines of its block show the nodes on its path below the root, the last
of them the variable itself beside the formula. For any other variable the block says why there is
no formula, behind the lines on the nodes above an absolute value (`relationsLog_explains`).
-/

namespace ClosedForm

open Log (Event)

/-! ## Steps along a path -/

/-- The line that a node has been found to equal the known expression. -/
def rearrangedTo (node known : Expr) : Event :=
  Log.trace ("Rearranged to " ++ node.render ++ " = " ++ known.render)

theorem Layer.mem_leaves_of_undo {layer : Layer} {known next : Expr} {name : String}
    (h : layer.undo known = .ok next) (hmem : name ∈ next.leaves) :
    name ∈ known.leaves ∨ name ∈ layer.leaves := by
  cases layer with
  | negation =>
    obtain rfl := Except.ok.inj h
    exact .inl hmem
  | call f =>
    obtain ⟨g, -, rfl⟩ := undo_call_eq_ok_iff.mp h
    exact .inl hmem
  | leftOf op right =>
    obtain rfl := Except.ok.inj h
    cases op <;> simpa [solveLeft, Expr.leaves, leaves] using hmem
  | rightOf left op =>
    obtain rfl := Except.ok.inj h
    cases op <;> simpa [solveRight, Expr.leaves, leaves, or_comm] using hmem

namespace Arrangement

variable {subject : String} {layer : Layer} {layers : List Layer} {known next formula : Expr}

theorem steps_go_congr {a b : Arrangement} (h : a.subject = b.subject) (layers : List Layer)
    (known : Expr) : steps.go a layers known = steps.go b layers known := by
  induction layers generalizing known with
  | nil => rfl
  | cons layer layers ih =>
    cases hundo : layer.undo known with
    | ok next => simp only [steps.go, hundo, h, ih]
    | error f => simp only [steps.go, hundo]

theorem steps_nil : steps ⟨subject, [], known⟩ = [] := rfl

theorem steps_cons (h : layer.undo known = .ok next) :
    steps ⟨subject, layer :: layers, known⟩ =
      ⟨subject, layers, next⟩ :: steps ⟨subject, layers, next⟩ := by
  have hsame : steps.go ⟨subject, layer :: layers, known⟩ layers next =
      steps.go ⟨subject, layers, next⟩ layers next := by
    apply steps_go_congr
    rfl
  rw [steps, steps.go, h]
  exact congrArg (List.cons _) hsame

theorem steps_cons_abs : steps ⟨subject, .call .abs :: layers, known⟩ = [] := rfl

/-- The steps are about the nodes below the root, one after the other. -/
theorem map_hole_steps (subject : String) (layers : List Layer) (known : Expr) :
    (steps ⟨subject, layers, known⟩).map hole <+: (Layer.nodes (.var subject) layers).tail := by
  induction layers generalizing known with
  | nil => exact List.nil_prefix
  | cons layer layers ih =>
    cases hundo : layer.undo known with
    | ok next =>
      rw [steps_cons hundo, List.map_cons, Layer.nodes, List.tail_cons, Layer.nodes_eq_cons]
      exact List.cons_prefix_cons.mpr ⟨rfl, ih next⟩
    | error f =>
      obtain ⟨rfl, -⟩ := (Layer.undo_eq_error_iff layer known f).mp hundo
      rw [steps_cons_abs]
      exact List.nil_prefix

/-- The steps go on to the first absolute value. -/
theorem length_steps (subject : String) (layers : List Layer) (known : Expr) :
    (steps ⟨subject, layers, known⟩).length = (layers.takeWhile (· ≠ .call .abs)).length := by
  induction layers generalizing known with
  | nil => rfl
  | cons layer layers ih =>
    cases hundo : layer.undo known with
    | ok next =>
      have hlayer : layer ≠ .call .abs := by
        rintro rfl
        cases hundo
      rw [steps_cons hundo, List.takeWhile_cons_of_pos (by simpa using hlayer), List.length_cons,
        List.length_cons, ih]
    | error f =>
      obtain ⟨rfl, -⟩ := (Layer.undo_eq_error_iff layer known f).mp hundo
      rfl

/-- The last step has the variable on one side and the formula on the other. -/
theorem getLast?_cons_steps (h : Layer.undoAll layers known = .ok formula) :
    (⟨subject, layers, known⟩ :: steps ⟨subject, layers, known⟩).getLast? =
      some ⟨subject, [], formula⟩ := by
  induction layers generalizing known with
  | nil =>
    obtain rfl := Except.ok.inj h
    rfl
  | cons layer layers ih =>
    obtain ⟨next, hnext, hundo⟩ := Layer.undoAll_cons_eq_ok_iff.mp h
    rw [steps_cons hnext, List.getLast?_cons_cons]
    exact ih hundo

/-- The subject stands in its place and nowhere else. -/
structure HasSubjectOnce (a : Arrangement) : Prop where
  layers : ∀ layer ∈ a.layers, a.subject ∉ layer.leaves
  known : a.subject ∉ a.known.leaves

theorem HasSubjectOnce.of_undo (h : HasSubjectOnce ⟨subject, layer :: layers, known⟩)
    (hundo : layer.undo known = .ok next) : HasSubjectOnce ⟨subject, layers, next⟩ := by
  obtain ⟨hlayer, hlayers⟩ := List.forall_mem_cons.mp h.layers
  exact ⟨hlayers, fun hmem ↦ (Layer.mem_leaves_of_undo hundo hmem).elim h.known hlayer⟩

/-- Every step leads to the same formula. -/
theorem solve_of_mem_steps (h : HasSubjectOnce ⟨subject, layers, known⟩) :
    ∀ a ∈ steps ⟨subject, layers, known⟩, a.subject = subject ∧ a.HasSubjectOnce ∧
      a.solve = solve ⟨subject, layers, known⟩ := by
  induction layers generalizing known with
  | nil => simp [steps_nil]
  | cons layer layers ih =>
    cases hundo : layer.undo known with
    | ok next =>
      have hnext := h.of_undo hundo
      have hsolve : solve ⟨subject, layer :: layers, known⟩ = solve ⟨subject, layers, next⟩ := by
        rw [solve, Layer.undoAll, hundo]
        rfl
      rw [steps_cons hundo, hsolve, List.forall_mem_cons]
      exact ⟨⟨rfl, hnext, rfl⟩, ih hnext⟩
    | error f =>
      obtain ⟨rfl, -⟩ := (Layer.undo_eq_error_iff layer known f).mp hundo
      simp [steps_cons_abs]

end Arrangement

/-! ## Obstacles -/

namespace Layer

theorem undoAll_eq_error {layers : List Layer} {known : Expr} {f : Fn}
    (h : undoAll layers known = .error f) : f = .abs ∧ call .abs ∈ layers := by
  induction layers generalizing known with
  | nil => cases h
  | cons layer layers ih =>
    rcases bind_eq_error_iff.mp h with hundo | ⟨next, -, hbelow⟩
    · obtain ⟨rfl, rfl⟩ := (undo_eq_error_iff layer known f).mp hundo
      exact ⟨rfl, List.mem_cons_self⟩
    · obtain ⟨rfl, hmem⟩ := ih hbelow
      exact ⟨rfl, List.mem_cons_of_mem layer hmem⟩

/-- The way through layers up to the outermost absolute value. -/
theorem exists_nodes_above_abs {name : String} {layers : List Layer}
    (h : call .abs ∈ layers) :
    ∃ above argument below, nodes (.var name) layers = above ++ .call .abs argument :: below ∧
      (∀ argument, .call .abs argument ∉ above) ∧
      above.length = (layers.takeWhile (· ≠ call .abs)).length := by
  induction layers with
  | nil => cases h
  | cons layer layers ih =>
    by_cases hlayer : layer = call .abs
    · subst hlayer
      exact ⟨[], _, nodes (.var name) layers, rfl, by simp, by simp⟩
    · obtain ⟨above, argument, below, hnodes, habove, hlength⟩ :=
        ih (List.mem_of_ne_of_mem (Ne.symm hlayer) h)
      refine ⟨plugAll (layer :: layers) (.var name) :: above, argument, below, ?_, ?_, ?_⟩
      · rw [nodes, hnodes, List.cons_append]
      · intro other hmem
        rcases List.mem_cons.mp hmem with hroot | hmem
        · exact hlayer (plug_eq_call_iff.mp hroot.symm).1
        · exact habove other hmem
      · rw [List.takeWhile_cons_of_pos (by simpa using hlayer), List.length_cons, hlength,
          List.length_cons]

end Layer

namespace Equation

/-- Nothing is equated. -/
def IsBare : Equation → Prop
  | expression _ => True
  | equality _ _ => False

/-- More than one leaf on the two sides carries the name. -/
def Repeats (name : String) : Equation → Prop
  | expression _ => False
  | equality left right => 2 ≤ (left.leaves ++ right.leaves).count name

/-- One leaf on the two sides carries the name, and an absolute value stands above it. -/
def HidesOnce (name : String) : Equation → Prop
  | expression _ => False
  | equality left right =>
    (left.leaves ++ right.leaves).count name = 1 ∧ (left.Hides name ∨ right.Hides name)

variable {q : Equation} {name : String} {a : Arrangement} {formula : Expr} {obstacle : Obstacle}

/-- What keeps a variable from being isolated. -/
theorem rearrange_eq_error_cases (hname : name ∈ q.vars)
    (h : q.rearrange (.whole name) = .error obstacle) :
    q.IsBare ∧ obstacle = .nothingEquated ∨ q.Repeats name ∧ obstacle = .repeated ∨
      q.HidesOnce name ∧ obstacle = .notInvertible .abs := by
  cases q with
  | expression e => exact .inl ⟨trivial, (Except.error.inj h).symm⟩
  | equality left right =>
    rcases bind_eq_error_iff.mp h with harrange | ⟨a, harrange, hsolve⟩
    · rcases arrange_whole_eq_error_iff.mp harrange with ⟨hnone, -⟩ | ⟨hmany, rfl⟩
      · have hmem : name ∈ left.leaves ++ right.leaves := by
          simpa using mem_vars_equality_iff.mp hname
        exact absurd hmem (List.count_eq_zero.mp hnone)
      · exact .inr (.inl ⟨hmany, rfl⟩)
    · obtain ⟨f, hundo, rfl⟩ := mapError_eq_error_iff.mp hsolve
      obtain ⟨rfl, habs⟩ := Layer.undoAll_eq_error hundo
      have hhides : left.Hides name ∨ right.Hides name := by
        rw [Expr.hides_iff_mem_places, Expr.hides_iff_mem_places]
        obtain ⟨-, ⟨hplace, -, -⟩ | ⟨-, hplace, -⟩⟩ := arrange_whole_eq_ok_iff.mp harrange
        · exact .inl ⟨_, hplace ▸ List.mem_singleton_self _, habs⟩
        · exact .inr ⟨_, hplace ▸ List.mem_singleton_self _, habs⟩
      exact .inr (.inr ⟨⟨count_of_arrange harrange, hhides⟩, rfl⟩)

/-! ## Blocks -/

/-- What the log says about one variable. -/
def block (q : Equation) (name : String) : List Event :=
  match q.isolate (.whole name) with
  | .ok _ => q.rearrangeLog (.whole name)
  | .error _ => q.rearrangeLog (.whole name) ++ [Log.debug ("No relation for \"" ++ name ++ "\"")]

theorem relationsLog_eq (q : Equation) : q.relationsLog = q.vars.flatMap q.block := rfl

/-- The lines of the block on a variable, before anything is said about an obstacle. -/
def stepLines (q : Equation) (name : String) : List Event :=
  match q.arrange (.whole name) with
  | .ok a => a.steps.map Arrangement.event
  | .error _ => []

theorem stepLines_of_arrange (h : q.arrange (.whole name) = .ok a) :
    q.stepLines name = a.steps.map Arrangement.event := by
  rw [stepLines, h]

theorem block_of_ok (h : q.rearrange (.whole name) = .ok formula) :
    q.block name = q.stepLines name := by
  rw [block, isolate, rearrangeLog, h]
  rfl

theorem block_of_error (h : q.rearrange (.whole name) = .error obstacle) :
    q.block name = q.stepLines name ++
      [Log.debug (obstacle.message name q), Log.debug ("No relation for \"" ++ name ++ "\"")] := by
  have hlog : q.rearrangeLog (.whole name) =
      q.stepLines name ++ [Log.debug (obstacle.message name q)] := by
    rw [rearrangeLog, h]
    rfl
  rw [block, isolate, h, Except.map, hlog]
  exact List.append_assoc _ _ _

theorem hasSubjectOnce_of_arrange (h : q.arrange (.whole name) = .ok a) : a.HasSubjectOnce := by
  cases q with
  | expression e => cases h
  | equality left right =>
    obtain ⟨rfl, ⟨hplace, hnone, hknown⟩ | ⟨hnone, hplace, hknown⟩⟩ := arrange_whole_eq_ok_iff.mp h
    · exact ⟨Expr.notMem_leaves_of_places hplace, hknown ▸ Expr.places_eq_nil_iff.mp hnone⟩
    · exact ⟨Expr.notMem_leaves_of_places hplace, hknown ▸ Expr.places_eq_nil_iff.mp hnone⟩

/-- The equation that an arrangement stands for is arranged in that way. -/
theorem arrange_equality_hole (h : a.HasSubjectOnce) :
    (equality a.hole a.known).arrange (.whole a.subject) = .ok a :=
  arrange_whole_eq_ok_iff.mpr ⟨rfl, .inl ⟨Expr.places_plugAll h.layers,
    Expr.places_eq_nil_iff.mpr h.known, rfl⟩⟩

theorem rearrange_equality_hole (h : a.HasSubjectOnce) :
    (equality a.hole a.known).rearrange (.whole a.subject) = a.solve := by
  rw [rearrange, arrange_equality_hole h]
  rfl

/-- The events are lines on the first nodes below the root of a path, `count` in all. Each line
shows an equation that has the same formula for the variable. -/
def Traces (q : Equation) (name : String) (nodes : List Expr) (count : Nat)
    (events : List Event) : Prop :=
  ∃ lines : List (Expr × Expr),
    lines.length = count ∧ lines.map Prod.fst <+: nodes.tail ∧
      (∀ line ∈ lines,
        (equality line.1 line.2).rearrange (.whole name) = q.rearrange (.whole name)) ∧
      events = lines.map fun line ↦ rearrangedTo line.1 line.2

theorem traces_stepLines (h : q.arrange (.whole name) = .ok a) :
    q.Traces name (Layer.nodes (.var name) a.layers)
      (a.layers.takeWhile (· ≠ .call .abs)).length (q.stepLines name) := by
  have hrearrange : q.rearrange (.whole name) = a.solve := by
    rw [rearrange, h]
    rfl
  have hsteps := Arrangement.solve_of_mem_steps (hasSubjectOnce_of_arrange h)
  obtain rfl : a.subject = name := subject_of_arrange h
  refine ⟨a.steps.map fun b ↦ (b.hole, b.known), ?_, ?_, ?_, ?_⟩
  · rw [List.length_map, Arrangement.length_steps]
  · rw [List.map_map]
    exact Arrangement.map_hole_steps a.subject a.layers a.known
  · intro line hline
    obtain ⟨b, hb, rfl⟩ := List.mem_map.mp hline
    obtain ⟨hsubject, honce, hsolve⟩ := hsteps b hb
    rw [← hsubject, rearrange_equality_hole honce, hsolve, hsubject, hrearrange]
  · rw [stepLines_of_arrange h, List.map_map]
    rfl

/-- The block on a variable with a formula leads down the path to it. -/
theorem exists_traces_of_rearrange (h : q.rearrange (.whole name) = .ok formula) :
    ∃ nodes, q.Path name nodes ∧ q.Traces name nodes nodes.dropLast.length (q.block name) ∧
      ∀ last ∈ (q.block name).getLast?, last = rearrangedTo (.var name) formula := by
  obtain ⟨a, harrange, hundo⟩ := rearrange_eq_ok_iff.mp h
  have hall : a.layers.takeWhile (· ≠ .call .abs) = a.layers := by
    have habs : Layer.call .abs ∉ a.layers := Layer.exists_undoAll_iff.mp ⟨formula, hundo⟩
    rw [List.takeWhile_eq_self_iff]
    intro layer hmem
    simpa using ne_of_mem_of_not_mem hmem habs
  have htraces := traces_stepLines harrange
  rw [hall] at htraces
  refine ⟨_, (path_iff_of_arrange harrange).mpr rfl, ?_, ?_⟩
  · rwa [block_of_ok h, List.length_dropLast, Layer.length_nodes, Nat.add_sub_cancel]
  · intro last hlast
    have hsteps := @Arrangement.getLast?_cons_steps a.subject _ _ _ hundo
    rw [block_of_ok h, stepLines_of_arrange harrange, List.getLast?_map] at hlast
    obtain ⟨step, hstep, rfl⟩ := Option.mem_map.mp hlast
    rw [List.getLast?_cons, Option.mem_def.mp hstep] at hsteps
    have hformula : step = ⟨a.subject, [], formula⟩ := Option.some.inj hsteps
    rw [hformula, subject_of_arrange harrange]
    rfl

theorem stepLines_eq_nil (h : q.IsBare ∨ q.Repeats name) : q.stepLines name = [] := by
  cases q with
  | expression e => rfl
  | equality left right =>
    have harrange : (equality left right).arrange (.whole name) = .error .repeated :=
      arrange_whole_eq_error_iff.mpr (.inr ⟨h.resolve_left id, rfl⟩)
    rw [stepLines, harrange]

theorem exists_arrange_of_hidesOnce (h : q.HidesOnce name) :
    ∃ a, q.arrange (.whole name) = .ok a ∧ Layer.call .abs ∈ a.layers := by
  cases q with
  | expression e => cases h
  | equality left right =>
    obtain ⟨hcount, hhides⟩ := h
    rw [Expr.hides_iff_mem_places, Expr.hides_iff_mem_places] at hhides
    cases harrange : (equality left right).arrange (.whole name) with
    | ok a =>
      refine ⟨a, rfl, ?_⟩
      obtain ⟨-, ⟨hleft, hright, -⟩ | ⟨hleft, hright, -⟩⟩ := arrange_whole_eq_ok_iff.mp harrange
      · simpa [hleft, hright] using hhides
      · simpa [hleft, hright] using hhides
    | error obstacle =>
      rcases arrange_whole_eq_error_iff.mp harrange with ⟨hnone, -⟩ | ⟨hmany, -⟩ <;> omega

/-- The lines on a variable below an absolute value lead to the outermost one. -/
theorem exists_traces_of_hidesOnce (h : q.HidesOnce name) :
    ∃ above argument below, q.Path name (above ++ .call .abs argument :: below) ∧
      (∀ other, .call .abs other ∉ above) ∧
      q.Traces name (above ++ .call .abs argument :: below) above.length (q.stepLines name) := by
  obtain ⟨a, harrange, habs⟩ := exists_arrange_of_hidesOnce h
  obtain ⟨above, argument, below, hnodes, habove, hlength⟩ :=
    @Layer.exists_nodes_above_abs name a.layers habs
  refine ⟨above, argument, below, (path_iff_of_arrange harrange).mpr hnodes.symm, habove, ?_⟩
  rw [← hnodes, hlength]
  exact traces_stepLines harrange

/-- The obstacles to isolating a variable of the equation are told apart by what they come from. -/
theorem obstacle_iff (hname : name ∈ q.vars) (h : q.rearrange (.whole name) = .error obstacle) :
    (obstacle = .nothingEquated ↔ q.IsBare) ∧ (obstacle = .repeated ↔ q.Repeats name) ∧
      (obstacle = .notInvertible .abs ↔ q.HidesOnce name) := by
  have hcases := rearrange_eq_error_cases hname h
  cases q with
  | expression e =>
    obtain rfl : obstacle = .nothingEquated := by simpa [IsBare, Repeats, HidesOnce] using hcases
    simp [IsBare, Repeats, HidesOnce]
  | equality left right =>
    rcases hcases with ⟨hbare, -⟩ | ⟨hmany, rfl⟩ | ⟨⟨hone, hhides⟩, rfl⟩
    · cases hbare
    · have hcount : 2 ≤ (left.leaves ++ right.leaves).count name := hmany
      have hne : (left.leaves ++ right.leaves).count name ≠ 1 := by omega
      simp only [IsBare, Repeats, HidesOnce, hcount, hne, reduceCtorEq, false_and, iff_self,
        and_self]
    · simp only [IsBare, Repeats, HidesOnce, hone, hhides, reduceCtorEq, Nat.reduceLeDiff,
        and_self]

end Equation

/-! ## Messages -/

namespace Obstacle

/-- The obstacles to isolating a variable that is in the equation. -/
def actual : List Obstacle :=
  [.nothingEquated, .repeated, .notInvertible .abs]

variable (name : String) (q : Equation)

theorem message_nothingEquated :
    nothingEquated.message name q = "\"" ++ name ++ "\" has nothing to be equated with" := rfl

theorem message_repeated :
    repeated.message name q =
      "Unable to isolate \"" ++ name ++ "\" because it is used more than once" := rfl

theorem message_abs :
    (notInvertible .abs).message name q =
      "Unable to isolate \"" ++ name ++ "\" because abs() can't be inverted" := by
  have hmessage : (notInvertible .abs).message name q =
      "Unable to isolate \"" ++ name ++ "\" because " ++ "abs" ++ "() can't be inverted" := rfl
  simp [hmessage, String.append_assoc]

/-- The messages of actual obstacles differ. -/
theorem message_eq_iff {obstacle other : Obstacle} (h : obstacle ∈ actual)
    (hother : other ∈ actual) :
    obstacle.message name q = other.message name q ↔ obstacle = other := by
  have hbare : nothingEquated.message name q ≠ repeated.message name q := by
    intro heq
    rw [message_nothingEquated, message_repeated] at heq
    simpa using congrArg String.toList heq
  have hbare' : nothingEquated.message name q ≠ (notInvertible .abs).message name q := by
    intro heq
    rw [message_nothingEquated, message_abs] at heq
    simpa using congrArg String.toList heq
  have hmany : repeated.message name q ≠ (notInvertible .abs).message name q := by
    intro heq
    rw [message_repeated, message_abs] at heq
    simpa using congrArg String.toList heq
  simp only [actual, List.mem_cons, List.not_mem_nil, or_false] at h hother
  rcases h with rfl | rfl | rfl <;> rcases hother with rfl | rfl | rfl <;>
    simp [hbare, hbare', hmany, hbare.symm, hbare'.symm, hmany.symm]

end Obstacle

/-- The message says that a variable is not in an equation. -/
def SaysAbsent (message : String) : Prop :=
  ∃ subject text, message = "\"" ++ subject ++ "\" isn't in \"" ++ text ++ "\""

theorem SaysAbsent.quoted {message : String} (h : SaysAbsent message) :
    message.toList.head? = some '"' ∧ message.toList.getLast? = some '"' := by
  obtain ⟨subject, text, rfl⟩ := h
  constructor
  · simp
  · rw [String.toList_append, List.getLast?_append]
    rfl

theorem not_saysAbsent_event (a : Arrangement) : ¬SaysAbsent a.event.message := by
  intro h
  simpa [Arrangement.event, Log.trace] using h.quoted.1

theorem not_saysAbsent_of_actual {obstacle : Obstacle} (h : obstacle ∈ Obstacle.actual)
    (name : String) (q : Equation) : ¬SaysAbsent (obstacle.message name q) := by
  intro hsays
  obtain ⟨hfirst, hlast⟩ := hsays.quoted
  simp only [Obstacle.actual, List.mem_cons, List.not_mem_nil, or_false] at h
  rcases h with rfl | rfl | rfl
  · rw [Obstacle.message_nothingEquated, String.toList_append, List.getLast?_append] at hlast
    exact absurd hlast (by simp)
  · simp [Obstacle.message_repeated] at hfirst
  · simp [Obstacle.message_abs] at hfirst

theorem not_saysAbsent_noRelation (name : String) :
    ¬SaysAbsent ("No relation for \"" ++ name ++ "\"") := by
  intro h
  simpa using h.quoted.1

/-! ## The log -/

namespace Equation

variable {q : Equation} {name : String} {obstacle : Obstacle}

theorem mem_actual (hname : name ∈ q.vars) (h : q.rearrange (.whole name) = .error obstacle) :
    obstacle ∈ Obstacle.actual := by
  rcases rearrange_eq_error_cases hname h with ⟨-, rfl⟩ | ⟨-, rfl⟩ | ⟨-, rfl⟩ <;>
    simp [Obstacle.actual]

/-- Nothing in the block on a variable of the equation says that it is absent. -/
theorem not_saysAbsent_of_mem_block (hname : name ∈ q.vars) {event : Event}
    (h : event ∈ q.block name) : ¬SaysAbsent event.message := by
  have htraces : event ∈ q.stepLines name → ¬SaysAbsent event.message := by
    intro hmem
    rw [stepLines] at hmem
    split at hmem
    · obtain ⟨a, -, rfl⟩ := List.mem_map.mp hmem
      exact not_saysAbsent_event a
    · cases hmem
  cases hresult : q.rearrange (.whole name) with
  | ok formula =>
    rw [block_of_ok hresult] at h
    exact htraces h
  | error obstacle =>
    rw [block_of_error hresult, List.mem_append, List.mem_pair] at h
    rcases h with h | rfl | rfl
    · exact htraces h
    · exact not_saysAbsent_of_actual (mem_actual hname hresult) name q
    · exact not_saysAbsent_noRelation name

/-- The reason why a variable cannot be isolated, and the lines in front of it. -/
structure Excuses (q : Equation) (name : String) (traces : List Event) (reason : String) :
    Prop where
  bare_or_repeats_or_hidesOnce : q.IsBare ∨ q.Repeats name ∨ q.HidesOnce name
  bare : reason = "\"" ++ name ++ "\" has nothing to be equated with" ↔ q.IsBare
  repeats : reason = "Unable to isolate \"" ++ name ++ "\" because it is used more than once" ↔
    q.Repeats name
  hidesOnce : reason = "Unable to isolate \"" ++ name ++ "\" because abs() can't be inverted" ↔
    q.HidesOnce name
  traces_eq_nil : q.IsBare ∨ q.Repeats name → traces = []
  traces_above : q.HidesOnce name → ∃ above argument below,
    q.Path name (above ++ .call .abs argument :: below) ∧
      (∀ other, .call .abs other ∉ above) ∧
      q.Traces name (above ++ .call .abs argument :: below) above.length traces

theorem excuses_of_rearrange (hname : name ∈ q.vars)
    (h : q.rearrange (.whole name) = .error obstacle) :
    q.Excuses name (q.stepLines name) (obstacle.message name q) := by
  have hactual := mem_actual hname h
  have hmessage {other : Obstacle} (hother : other ∈ Obstacle.actual) :=
    Obstacle.message_eq_iff name q hactual hother
  obtain ⟨hbare, hrepeats, hhides⟩ := obstacle_iff hname h
  refine ⟨?_, ?_, ?_, ?_, stepLines_eq_nil, exists_traces_of_hidesOnce⟩
  · rcases rearrange_eq_error_cases hname h with ⟨hq, -⟩ | ⟨hq, -⟩ | ⟨hq, -⟩
    · exact .inl hq
    · exact .inr (.inl hq)
    · exact .inr (.inr hq)
  · rw [← Obstacle.message_nothingEquated name q, hmessage (by simp [Obstacle.actual]), hbare]
  · rw [← Obstacle.message_repeated name q, hmessage (by simp [Obstacle.actual]), hrepeats]
  · rw [← Obstacle.message_abs name q, hmessage (by simp [Obstacle.actual]), hhides]

end Equation

/-- The log on the relations of an equation has one block a variable, which leads down the path to
an isolable variable and gives one reason for any other. No variable is said to be absent. Solving
a text adds the number of relations. -/
theorem relationsLog_explains :
    (∀ q : Equation,
      q.relationsLog = q.vars.flatMap q.block ∧
      (∀ name ∈ q.vars,
        (q.Isolable name → ∃ r ∈ q.relations.toList, r.subject = name ∧
          ∃ nodes, q.Path name nodes ∧
            q.Traces name nodes nodes.dropLast.length (q.block name) ∧
            ∀ last ∈ (q.block name).getLast?, last = Log.trace ("Rearranged to " ++ r.render)) ∧
        (¬q.Isolable name → ∃ traces reason,
          q.block name = traces ++
            [Log.debug reason, Log.debug ("No relation for \"" ++ name ++ "\"")] ∧
          q.Excuses name traces reason)) ∧
      ∀ event ∈ q.relationsLog, ¬SaysAbsent event.message) ∧
    ∀ text q, Equation.parse text = .ok q → ∃ rs, solve text = .ok rs ∧ rs = q.relations ∧
      solveLog text = q.relationsLog ++
        [Log.debug ("Found " ++ toString rs.toList.length ++ " relations for \"" ++
          Text.trim text ++ "\"")] := by
  refine ⟨fun q ↦ ⟨q.relationsLog_eq, fun name hname ↦ ⟨fun h ↦ ?_, fun h ↦ ?_⟩, ?_⟩,
    fun text q hparse ↦ ⟨q.relations, solve_eq_ok_iff.mpr ⟨q, hparse, rfl⟩, rfl, ?_⟩⟩
  · obtain ⟨formula, hformula⟩ := Equation.exists_rearrange_iff.mpr h
    have hr : ⟨name, formula.render⟩ ∈ q.relations.toList :=
      q.mem_relations_iff.mpr ⟨hname, formula, hformula, rfl⟩
    obtain ⟨nodes, hpath, htraces, hlast⟩ := Equation.exists_traces_of_rearrange hformula
    refine ⟨_, hr, rfl, nodes, hpath, htraces, fun last hmem ↦ ?_⟩
    rw [hlast last hmem, rearrangedTo, Relation.render, ← String.append_assoc,
      ← String.append_assoc]
    rfl
  · cases hresult : q.rearrange (.whole name) with
    | ok formula => exact absurd (Equation.exists_rearrange_iff.mp ⟨formula, hresult⟩) h
    | error obstacle =>
      exact ⟨_, _, Equation.block_of_error hresult, Equation.excuses_of_rearrange hname hresult⟩
  · intro event hmem
    rw [q.relationsLog_eq, List.mem_flatMap] at hmem
    obtain ⟨name, hname, hevent⟩ := hmem
    exact Equation.not_saysAbsent_of_mem_block hname hevent
  · rw [solveLog, hparse]
    rfl

/-- The log on `a = abs(b) + c * c + d`, where two lines lead to the absolute value above `b`. -/
theorem relationsLog_explains_of_absolute_value :
    let squares := Expr.mul (.var "c") (.var "c")
    let q := Equation.equality (.var "a")
      (.add (.add (.call .abs (.var "b")) squares) (.var "d"))
    let text := "a = abs(b) + c * c + d"
    q.relationsLog =
      [Log.trace "Rearranged to abs(b) + (c * c) = a - d",
        Log.trace "Rearranged to abs(b) = (a - d) - (c * c)",
        Log.debug "Unable to isolate \"b\" because abs() can't be inverted",
        Log.debug "No relation for \"b\"",
        Log.debug "Unable to isolate \"c\" because it is used more than once",
        Log.debug "No relation for \"c\"",
        Log.trace "Rearranged to d = a - (abs(b) + (c * c))"] ∧
      "b" ∈ q.vars ∧ q.HidesOnce "b" ∧ ¬q.Isolable "b" ∧
      (∃ traces, q.block "b" = traces ++
        [Log.debug "Unable to isolate \"b\" because abs() can't be inverted",
          Log.debug "No relation for \"b\""]) ∧
      "d" ∈ q.vars ∧ q.Isolable "d" ∧
      (∃ r ∈ q.relations.toList, r.subject = "d" ∧ ∃ nodes, q.Path "d" nodes ∧
        q.Traces "d" nodes nodes.dropLast.length (q.block "d") ∧
        ∀ last ∈ (q.block "d").getLast?, last = Log.trace ("Rearranged to " ++ r.render)) ∧
      Equation.parse text = .ok q ∧
      ∃ rs, solve text = .ok rs ∧ rs = q.relations ∧
        solveLog text = q.relationsLog ++
          [Log.debug ("Found " ++ toString rs.toList.length ++ " relations for \"" ++
            Text.trim text ++ "\"")] := by
  intro squares q text
  obtain ⟨hequations, htexts⟩ := relationsLog_explains
  obtain ⟨-, hblocks, -⟩ := hequations q
  have hb : "b" ∈ q.vars := by decide +kernel
  have hd : "d" ∈ q.vars := by decide +kernel
  have hhides : q.HidesOnce "b" := by
    have hpath : (Expr.call .abs (.var "b")).Hides "b" := by decide +kernel
    have hcount : ((Expr.var "a").leaves ++
        (Expr.add (.add (.call .abs (.var "b")) squares) (.var "d")).leaves).count "b" = 1 := by
      decide +kernel
    exact ⟨hcount, .inr (Expr.hides_binary_iff.mpr (.inl (Expr.hides_binary_iff.mpr (.inl hpath))))⟩
  have hstuck : ¬q.Isolable "b" := by decide +kernel
  have hisolable : q.Isolable "d" := by decide +kernel
  have hparse : Equation.parse text = .ok q := by decide +kernel
  obtain ⟨traces, reason, hblock, hexcuses⟩ := (hblocks "b" hb).2 hstuck
  obtain rfl := hexcuses.hidesOnce.mpr hhides
  exact ⟨by decide +kernel, hb, hhides, hstuck, ⟨traces, hblock⟩, hd, hisolable,
    (hblocks "d" hd).1 hisolable, hparse, htexts text q hparse⟩

end ClosedForm
