import ClosedForm.Proofs.Account
import ClosedForm.Proofs.Walk

/-!
# Resuming a rearrangement

A walk by counts comes to a new equation with every operation that it undoes, and the log reports
each of them. The variable still has one leaf in such an equation, on the side that is walked down.
So the equation can be taken up on its own, and that leads to what the whole walk finds: the
equations that remain, and at the end the same formula or the same absolute value
(`rearrange_resumes`).
-/

namespace ClosedForm

/-! ## Equations on the way -/

namespace Census

/-- The equation behind an undone operation, with what stands below the operation on one side, and
the equations further on. -/
def comeTo (undone : Except Fn Expr) (below : Expr) (further : Expr → List (Expr × Expr)) :
    List (Expr × Expr) :=
  match undone with
  | .ok next => (below, next) :: further next
  | .error _ => []

/-- The equations that a walk down a side comes to. -/
def reachedFrom (census : Census) (side : Side) (hole known : Expr) : List (Expr × Expr) :=
  match hole with
  | .number _ | .var _ => []
  | .unary .negate operand =>
    comeTo (Layer.negation.undo known) operand fun next ↦ census.reachedFrom side operand next
  | .unary (.call f) operand =>
    comeTo ((Layer.call f).undo known) operand fun next ↦ census.reachedFrom side operand next
  | .binary op left right =>
    if census.occurrences side left = .once then
      comeTo ((Layer.leftOf op right).undo known) left fun next ↦
        census.reachedFrom side left next
    else
      comeTo ((Layer.rightOf left op).undo known) right fun next ↦
        census.reachedFrom side right next

end Census

/-- The two sides of the equation that an arrangement stands for. -/
def Arrangement.sides (a : Arrangement) : Expr × Expr :=
  (a.hole, a.known)

theorem Arrangement.map_sides_steps_cons (subject : String) (layer : Layer) (layers : List Layer)
    (known : Expr) :
    (steps ⟨subject, layer :: layers, known⟩).map sides =
      Census.comeTo (layer.undo known) (Layer.plugAll layers (.var subject)) fun next ↦
        (steps ⟨subject, layers, next⟩).map sides := by
  cases hundo : layer.undo known with
  | ok next =>
    rw [steps_cons hundo]
    rfl
  | error f =>
    obtain ⟨rfl, -⟩ := (Layer.undo_eq_error_iff layer known f).mp hundo
    rfl

/-- On a side with one place of the subject the walk comes to the steps of an arrangement. -/
theorem Census.reachedFrom_eq {census : Census} {side : Side}
    (hcovers : census.scope.covers side = true) {e : Expr} {layers : List Layer}
    (hplace : e.places census.subject = [layers]) (known : Expr) :
    census.reachedFrom side e known =
      (Arrangement.steps ⟨census.subject, layers, known⟩).map Arrangement.sides := by
  induction e generalizing layers known with
  | number text => cases hplace
  | var other =>
    rw [Expr.places] at hplace
    split at hplace
    · obtain rfl := List.singleton_inj.mp hplace
      rfl
    · cases hplace
  | unary op operand ih =>
    cases op with
    | negate | call f =>
      obtain ⟨inner, hinner, rfl⟩ := List.map_eq_singleton_iff.mp hplace
      rw [Arrangement.map_sides_steps_cons, Expr.plugAll_of_places hinner, reachedFrom]
      simp only [ih hinner]
  | binary op left right ihl ihr =>
    rcases turn_of_places hcovers hplace with
      ⟨honce, inner, hinner, rfl⟩ | ⟨honce, inner, hinner, rfl⟩
    · rw [Arrangement.map_sides_steps_cons, Expr.plugAll_of_places hinner, reachedFrom,
        if_pos honce]
      simp only [ihl hinner]
    · rw [Arrangement.map_sides_steps_cons, Expr.plugAll_of_places hinner, reachedFrom,
        if_neg honce]
      simp only [ihr hinner]

namespace Equation

/-- The equations that a walk to the subject of the census comes to. -/
def reached (q : Equation) (census : Census) : List (Expr × Expr) :=
  match q with
  | expression _ => []
  | equality left right =>
    match census.occurrences .left left, census.occurrences .right right with
    | .once, .none => census.reachedFrom .left left right
    | .none, .once => census.reachedFrom .right right left
    | _, _ => []

theorem reached_eq (q : Equation) (census : Census) :
    q.reached census =
      match q.arrange census with
      | .ok a => a.steps.map Arrangement.sides
      | .error _ => [] := by
  cases q with
  | expression e => rfl
  | equality left right =>
    simp only [reached, arrange, Census.occurrences_eq_ofCount]
    rcases hleft : census.places .left left with _ | ⟨layers, _ | ⟨second, more⟩⟩
    · rcases hright : census.places .right right with _ | ⟨layers, _ | ⟨second, more⟩⟩
      · rfl
      · obtain ⟨hcovers, hplace⟩ := Census.places_eq_singleton_iff.mp hright
        exact Census.reachedFrom_eq hcovers hplace left
      · rfl
    · rcases census.places .right right with _ | ⟨other, _ | ⟨second, more⟩⟩
      · obtain ⟨hcovers, hplace⟩ := Census.places_eq_singleton_iff.mp hleft
        exact Census.reachedFrom_eq hcovers hplace right
      · rfl
      · rfl
    · rcases census.places .right right with _ | ⟨other, _ | ⟨third, rest⟩⟩ <;> rfl

end Equation

/-! ## What follows a step -/

namespace Arrangement

variable {subject : String} {layers : List Layer} {known : Expr}

/-- The steps behind a step are its own. -/
theorem steps_of_append {before after : List Arrangement} {a : Arrangement}
    (h : steps ⟨subject, layers, known⟩ = before ++ a :: after) : a.steps = after := by
  induction layers generalizing before known with
  | nil => simp [steps_nil] at h
  | cons layer layers ih =>
    cases hundo : layer.undo known with
    | ok next =>
      rw [steps_cons hundo] at h
      cases before with
      | nil =>
        obtain ⟨rfl, hafter⟩ := List.cons.inj h
        exact hafter
      | cons first before => exact ih (List.cons.inj h).2
    | error f =>
      obtain ⟨rfl, -⟩ := (Layer.undo_eq_error_iff layer known f).mp hundo
      simp [steps_cons_abs] at h

/-- Where a function cannot be undone the last step has it on one side. -/
theorem getLast?_cons_steps_of_error {f : Fn} (h : Layer.undoAll layers known = .error f) :
    ∃ inner value, (⟨subject, layers, known⟩ :: steps ⟨subject, layers, known⟩).getLast? =
      some ⟨subject, .call f :: inner, value⟩ := by
  induction layers generalizing known with
  | nil => cases h
  | cons layer layers ih =>
    rcases bind_eq_error_iff.mp h with hundo | ⟨next, hundo, hbelow⟩
    · obtain ⟨rfl, rfl⟩ := (Layer.undo_eq_error_iff layer known f).mp hundo
      exact ⟨layers, known, rfl⟩
    · obtain ⟨inner, value, hlast⟩ := ih hbelow
      exact ⟨inner, value, by rw [steps_cons hundo, List.getLast?_cons_cons, hlast]⟩

theorem solve_eq_error_iff {a : Arrangement} {obstacle : Obstacle} :
    a.solve = .error obstacle ↔
      obstacle = .notInvertible .abs ∧ Layer.undoAll a.layers a.known = .error .abs := by
  rw [solve, mapError_eq_error_iff]
  constructor
  · rintro ⟨f, hundo, rfl⟩
    obtain ⟨rfl, -⟩ := Layer.undoAll_eq_error hundo
    exact ⟨rfl, hundo⟩
  · rintro ⟨rfl, hundo⟩
    exact ⟨.abs, hundo, rfl⟩

end Arrangement

namespace Equation

variable {q : Equation} {name : String} {a : Arrangement}

theorem rearrange_of_arrange {census : Census} (h : q.arrange census = .ok a) :
    q.rearrange census = a.solve := by
  rw [rearrange, h]
  rfl

theorem reached_of_arrange {census : Census} (h : q.arrange census = .ok a) :
    q.reached census = a.steps.map Arrangement.sides := by
  rw [reached_eq, h]

/-- The log of a rearrangement is the report on the steps, and what keeps it from its end. -/
theorem rearrangeLog_of_arrange {census : Census} (h : q.arrange census = .ok a) :
    q.rearrangeLog census = a.steps.map Arrangement.event ++
      match a.solve with
      | .ok _ => []
      | .error obstacle => [Log.debug (obstacle.message census.subject q)] := by
  rw [rearrangeLog, rearrange_of_arrange h, h]
  cases a.solve with
  | ok formula => exact (List.append_nil _).symm
  | error obstacle => rfl

/-- The log traces the equations that are reached and nothing else. -/
theorem filter_trace_rearrangeLog (q : Equation) (census : Census) :
    (q.rearrangeLog census).filter (·.level = .trace) =
      (q.reached census).map fun line ↦ rearrangedTo line.1 line.2 := by
  rw [reached_eq]
  cases harrange : q.arrange census with
  | ok a =>
    have hsteps : (a.steps.map Arrangement.event).filter (·.level = .trace) =
        a.steps.map Arrangement.event := by
      rw [List.filter_eq_self]
      intro event hevent
      obtain ⟨step, -, rfl⟩ := List.mem_map.mp hevent
      rfl
    have hlines : a.steps.map Arrangement.event =
        (a.steps.map Arrangement.sides).map fun line ↦ rearrangedTo line.1 line.2 := by
      rw [List.map_map]
      rfl
    rw [rearrangeLog_of_arrange harrange, List.filter_append, hsteps, ← hlines]
    cases a.solve <;> simp
  | error obstacle =>
    rw [rearrangeLog, rearrange, harrange]
    rfl

/-- The log from a step on is the log of an equation that is arranged like the step. -/
theorem rearrangeLog_eq_append {resumed : Equation} {before : List Arrangement} {b : Arrangement}
    (ha : q.arrange (.whole name) = .ok a) (hb : resumed.arrange (.whole name) = .ok b)
    (hsteps : a.steps = before ++ b :: b.steps) (hsolve : b.solve = a.solve) :
    q.rearrangeLog (.whole name) =
      (before ++ [b]).map Arrangement.event ++ resumed.rearrangeLog (.whole name) := by
  rw [rearrangeLog_of_arrange ha, rearrangeLog_of_arrange hb, hsteps, hsolve]
  cases hresult : a.solve with
  | ok formula => simp
  | error obstacle =>
    -- The message about an absolute value does not show the equation that it stands in.
    obtain ⟨rfl, -⟩ := Arrangement.solve_eq_error_iff.mp hresult
    simp [Obstacle.message_abs]

/-- A step `b` that the walk for a variable comes to behind the equations `before` it. -/
structure ComesTo (q : Equation) (name : String) (before : List (Expr × Expr)) (b : Arrangement) :
    Prop where
  arrange : (equality b.hole b.known).arrange (.whole name) = .ok b
  once : b.HasSubjectOnce
  subject : b.subject = name
  solve : b.solve = q.rearrange (.whole name)
  log : q.rearrangeLog (.whole name) =
    (before ++ [b.sides]).map (fun line ↦ rearrangedTo line.1 line.2) ++
      (equality b.hole b.known).rearrangeLog (.whole name)

theorem exists_comesTo {before after : List (Expr × Expr)} {line : Expr × Expr}
    (h : q.reached (.whole name) = before ++ line :: after) :
    ∃ b, q.ComesTo name before b ∧ b.sides = line ∧ b.steps.map Arrangement.sides = after := by
  cases harrange : q.arrange (.whole name) with
  | error obstacle => simp [reached_eq, harrange] at h
  | ok a =>
    rw [reached_of_arrange harrange] at h
    obtain ⟨earlier, behind, hsteps, rfl, hbehind⟩ := List.map_eq_append_iff.mp h
    obtain ⟨b, later, rfl, rfl, rfl⟩ := List.map_eq_cons_iff.mp hbehind
    have hlater : b.steps = later := Arrangement.steps_of_append hsteps
    have hmem : b ∈ a.steps := by simp [hsteps]
    obtain ⟨hsubject, honce, hsolve⟩ :=
      Arrangement.solve_of_mem_steps (hasSubjectOnce_of_arrange harrange) b hmem
    have hname : b.subject = name := hsubject.trans (subject_of_arrange harrange)
    have hb : (equality b.hole b.known).arrange (.whole name) = .ok b :=
      hname ▸ arrange_equality_hole honce
    have hlog := rearrangeLog_eq_append harrange hb (hlater.symm ▸ hsteps) hsolve
    refine ⟨b, ⟨hb, honce, hname, ?_, ?_⟩, rfl, congrArg _ hlater⟩
    · rw [rearrange_of_arrange harrange, hsolve]
    · rw [hlog]
      simp only [List.map_append, List.map_map, List.map_cons, List.map_nil]
      rfl

theorem ComesTo.count_leaves_hole {before : List (Expr × Expr)} {b : Arrangement}
    (h : q.ComesTo name before b) : b.hole.leaves.count name = 1 := by
  have hplace : b.hole.places b.subject = [b.layers] := Expr.places_plugAll h.once.layers
  rw [← Expr.length_places, ← h.subject, hplace, List.length_singleton]

/-- Where the walk is given up, the last equation that it comes to has an absolute value on the side
with the variable. -/
theorem ComesTo.exists_getLast?_of_error {before : List (Expr × Expr)} {b : Arrangement}
    (h : q.ComesTo name before b) {obstacle : Obstacle}
    (herror : q.rearrange (.whole name) = .error obstacle) :
    obstacle = .notInvertible .abs ∧ ∃ argument value,
      (b.sides :: b.steps.map Arrangement.sides).getLast? = some (.call .abs argument, value) := by
  rw [← h.solve, Arrangement.solve_eq_error_iff] at herror
  obtain ⟨hobstacle, hundo⟩ := herror
  obtain ⟨inner, value, hlast⟩ :=
    @Arrangement.getLast?_cons_steps_of_error b.subject b.layers b.known .abs hundo
  refine ⟨hobstacle, Layer.plugAll inner (.var b.subject), value, ?_⟩
  rw [← List.map_cons, List.getLast?_map, hlast]
  rfl

/-- Every equation that the log reports can be taken up on its own: the variable has one leaf on one
side of it and none on the other, and rearranging it leads through the equations reported later to
the same formula, or to the absolute value that the whole rearrangement is given up for. The log on
it is the rest of the log. -/
theorem rearrange_resumes (q : Equation) (name : String) :
    let reached := q.reached (.whole name)
    (q.rearrangeLog (.whole name)).filter (·.level = .trace) =
        reached.map (fun line ↦ rearrangedTo line.1 line.2) ∧
      ∀ before hole known after, reached = before ++ (hole, known) :: after →
        let resumed := equality hole known
        hole.leaves.count name = 1 ∧ name ∉ known.leaves ∧
          resumed.rearrange (.whole name) = q.rearrange (.whole name) ∧
          resumed.reached (.whole name) = after ∧
          q.rearrangeLog (.whole name) =
            (before ++ [(hole, known)]).map (fun line ↦ rearrangedTo line.1 line.2) ++
              resumed.rearrangeLog (.whole name) ∧
          ∀ obstacle, q.rearrange (.whole name) = .error obstacle →
            obstacle = .notInvertible .abs ∧ ∃ argument value,
              ((hole, known) :: after).getLast? = some (.call .abs argument, value) := by
  refine ⟨q.filter_trace_rearrangeLog _, fun before hole known after hreached ↦ ?_⟩
  obtain ⟨b, hb, hsides, rfl⟩ := exists_comesTo hreached
  obtain ⟨rfl, rfl⟩ := Prod.mk.inj hsides
  refine ⟨hb.count_leaves_hole, hb.subject ▸ hb.once.known, ?_, ?_, hb.log,
    fun obstacle herror ↦ hb.exists_getLast?_of_error herror⟩
  · rw [rearrange_of_arrange hb.arrange, hb.solve]
  · rw [reached_of_arrange hb.arrange]

/-- The rearrangement of `y = 2 * abs(x / 3) + 1` for `x` comes to `2 * abs(x / 3) = y - 1`. Taken
up there it comes to `abs(x / 3) = (y - 1) / 2` and is given up. -/
theorem rearrange_resumes_of_absolute_value :
    let absolute := Expr.call .abs (.div (.var "x") (.number "3"))
    let product := Expr.mul (.number "2") absolute
    let known := Expr.sub (.var "y") (.number "1")
    let half := Expr.div known (.number "2")
    let q := equality (.var "y") (.add product (.number "1"))
    let resumed := equality product known
    q.reached (.whole "x") = [] ++ (product, known) :: [(absolute, half)] ∧
      product.leaves.count "x" = 1 ∧ "x" ∉ known.leaves ∧
      q.rearrange (.whole "x") = .error (.notInvertible .abs) ∧
      resumed.rearrange (.whole "x") = .error (.notInvertible .abs) ∧
      resumed.reached (.whole "x") = [(absolute, half)] ∧
      q.rearrangeLog (.whole "x") =
        Log.trace "Rearranged to 2 * abs(x / 3) = y - 1" :: resumed.rearrangeLog (.whole "x") ∧
      ∃ argument value,
        [(product, known), (absolute, half)].getLast? = some (.call .abs argument, value) := by
  intro absolute product known half q resumed
  have hreached : q.reached (.whole "x") = [] ++ (product, known) :: [(absolute, half)] := by
    decide +kernel
  obtain ⟨hhole, hknown, hrearrange, hlater, hlog, hlast⟩ :=
    (rearrange_resumes q "x").2 [] product known [(absolute, half)] hreached
  have hstuck : q.rearrange (.whole "x") = .error (.notInvertible .abs) := by decide +kernel
  have hline : rearrangedTo product known = Log.trace "Rearranged to 2 * abs(x / 3) = y - 1" := by
    decide +kernel
  exact ⟨hreached, hhole, hknown, hstuck, hrearrange.trans hstuck, hlater, hline ▸ hlog,
    (hlast _ hstuck).2⟩

end Equation

end ClosedForm
