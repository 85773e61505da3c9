import ClosedForm.Proofs.Partition
import ClosedForm.Proofs.Replacement
import Mathlib.Data.Set.Function

/-!
# Renaming variables

Variables may be called what one likes, like numbers and functions even, as long as different ones
are called differently. What is found for an equation with new names is what is found for it with
the old ones, renamed and in the same order (`relations_rename`): names are compared with each other
and written out, but nothing else is made of them.
-/

namespace ClosedForm

variable {newName : String → String}

/-! ## Lists of names -/

theorem eraseDups_map_of_injOn {names : List String}
    (h : Set.InjOn newName {name | name ∈ names}) :
    (names.map newName).eraseDups = names.eraseDups.map newName := by
  match names with
  | [] => rfl
  | name :: names =>
    have hothers : (names.map newName).filter (fun other ↦ !other == newName name) =
        (names.filter fun other ↦ !other == name).map newName := by
      rw [List.filter_map]
      apply congrArg (List.map newName)
      apply List.filter_congr
      intro other hother
      have hsame : newName other = newName name ↔ other = name :=
        h.eq_iff (List.mem_cons_of_mem _ hother) List.mem_cons_self
      simp [hsame, beq_eq_decide]
    have hfewer : Set.InjOn newName {other | other ∈ names.filter fun other ↦ !other == name} :=
      h.mono fun other hother ↦ List.mem_cons_of_mem _ (List.mem_of_mem_filter hother)
    rw [List.map_cons, List.eraseDups_cons, List.eraseDups_cons, hothers,
      eraseDups_map_of_injOn hfewer, List.map_cons]
termination_by names.length
decreasing_by exact Nat.lt_succ_of_le (List.length_filter_le _ _)

/-! ## Expressions -/

namespace Expr

/-- Gives every variable a new name. -/
def rename (newName : String → String) (e : Expr) : Expr :=
  e.replace fun name ↦ var (newName name)

theorem leaves_rename (e : Expr) : (e.rename newName).leaves = e.leaves.map newName := by
  induction e with
  | number text | var name => rfl
  | unary op operand ih => exact ih
  | binary op left right ihl ihr => exact (congrArg₂ (· ++ ·) ihl ihr).trans List.map_append.symm

/-- No variable gets the new name of another one. -/
theorem renames_of_injOn {names : List String} (h : Set.InjOn newName {name | name ∈ names})
    {name : String} (hname : name ∈ names) :
    Renames (fun other ↦ var (newName other)) name (newName name) names := by
  refine ⟨rfl, ?_⟩
  intro other hother hne hmem
  exact hne (h hother hname (List.mem_singleton.mp hmem).symm)

end Expr

/-! ## Equations -/

namespace Equation

/-- Gives every variable of both sides a new name. -/
def rename (newName : String → String) : Equation → Equation
  | expression e => expression (e.rename newName)
  | equality left right => equality (left.rename newName) (right.rename newName)

/-- The isolable variables and their formulas, in the order in which the variables appear. -/
def formulas (q : Equation) : List (String × Expr) :=
  q.vars.filterMap fun name ↦ (q.rearrange (.whole name)).toOption.map (name, ·)

theorem toList_relations_eq_map (q : Equation) :
    q.relations.toList = q.formulas.map fun solved ↦ ⟨solved.1, solved.2.render⟩ := by
  rw [toList_relations, formulas, List.map_filterMap]
  apply congrArg (List.filterMap · q.vars)
  funext name
  rw [isolate]
  cases q.rearrange (.whole name) <;> rfl

section

variable {q : Equation} (h : Set.InjOn newName {name | name ∈ q.vars})
include h

theorem vars_rename : (q.rename newName).vars = q.vars.map newName := by
  have hleaves : (q.rename newName).sides.flatMap Expr.leaves =
      (q.sides.flatMap Expr.leaves).map newName := by
    cases q <;> simp [rename, sides, Expr.leaves_rename]
  have hinj : Set.InjOn newName {name | name ∈ q.sides.flatMap Expr.leaves} :=
    h.mono fun name hname ↦ List.mem_eraseDups.mpr hname
  rw [vars, hleaves, eraseDups_map_of_injOn hinj, vars]

theorem rearrange_rename {name : String} (hname : name ∈ q.vars) :
    (q.rename newName).rearrange (.whole (newName name)) =
      (q.rearrange (.whole name)).map (·.rename newName) := by
  cases q with
  | expression e => rfl
  | equality left right =>
    apply rearrange_replace
    apply (Expr.renames_of_injOn h hname).mono
    intro other hother
    simpa [vars, sides] using hother

theorem isolable_rename {name : String} (hname : name ∈ q.vars) :
    (q.rename newName).Isolable (newName name) ↔ q.Isolable name := by
  rw [← exists_rearrange_iff, ← exists_rearrange_iff, rearrange_rename h hname]
  cases q.rearrange (.whole name) <;> simp [Except.map]

theorem formulas_rename :
    (q.rename newName).formulas =
      q.formulas.map fun solved ↦ (newName solved.1, solved.2.rename newName) := by
  rw [formulas, formulas, vars_rename h, List.filterMap_map, List.map_filterMap]
  apply List.filterMap_congr
  intro name hname
  rw [Function.comp_apply, rearrange_rename h hname]
  cases q.rearrange (.whole name) <;> rfl

theorem unsolvable_relations_rename :
    (q.rename newName).unsolvable (q.rename newName).relations =
      (q.unsolvable q.relations).map newName := by
  rw [unsolvable_relations, unsolvable_relations, vars_rename h, List.filter_map]
  apply congrArg (List.map newName)
  apply List.filter_congr
  intro name hname
  simp [isolable_rename h hname]

end

/-- If new names are different for different variables, then an equation with new names has the
variables, the formulas, the relations and the unsolvable variables that it had, in their order,
with the new names in them. -/
theorem relations_rename {q : Equation} (h : Set.InjOn newName {name | name ∈ q.vars}) :
    let renamed := q.rename newName
    renamed.vars = q.vars.map newName ∧
      (∀ name ∈ q.vars, renamed.rearrange (.whole (newName name)) =
        (q.rearrange (.whole name)).map (·.rename newName)) ∧
      q.relations.toList = q.formulas.map (fun solved ↦ ⟨solved.1, solved.2.render⟩) ∧
      renamed.relations.toList = q.formulas.map (fun solved ↦
        ⟨newName solved.1, (solved.2.rename newName).render⟩) ∧
      renamed.unsolvable renamed.relations = (q.unsolvable q.relations).map newName := by
  intro renamed
  refine ⟨vars_rename h, fun name hname ↦ rearrange_rename h hname, q.toList_relations_eq_map, ?_,
    unsolvable_relations_rename h⟩
  rw [toList_relations_eq_map, formulas_rename h, List.map_map]
  rfl

/-- In `y = 2^z + abs(x)` the variables may be called `2`, `y` and `sin`. -/
theorem relations_rename_of_number :
    let power (exponent : String) := Expr.pow (.number "2") (.var exponent)
    let q := equality (.var "y") (.add (power "z") (.call .abs (.var "x")))
    let newName (name : String) := if name = "y" then "2" else if name = "z" then "y" else "sin"
    let renamed := equality (.var "2") (.add (power "y") (.call .abs (.var "sin")))
    Set.InjOn newName {name | name ∈ q.vars} ∧ q.rename newName = renamed ∧
      "z" ∈ q.vars ∧ renamed.vars = ["2", "y", "sin"] ∧
      renamed.rearrange (.whole "y") =
        (q.rearrange (.whole "z")).map (·.rename newName) ∧
      renamed.relations.toList =
        [⟨"2", "(2^y) + abs(sin)"⟩, ⟨"y", "log(2 - abs(sin)) / log(2)"⟩] ∧
      renamed.unsolvable renamed.relations = ["sin"] := by
  intro power q newName renamed
  have hinj : Set.InjOn newName {name | name ∈ q.vars} := by
    have hall : ∀ a ∈ q.vars, ∀ b ∈ q.vars, newName a = newName b → a = b := by decide
    exact fun a ha b hb ↦ hall a ha b hb
  have hname : "z" ∈ q.vars := by decide
  obtain ⟨hvars, hrearrange, -, hrelations, hunsolvable⟩ := relations_rename hinj
  have hformulas : q.formulas = [("y", .add (power "z") (.call .abs (.var "x"))),
      ("z", .div (.call .log (.sub (.var "y") (.call .abs (.var "x"))))
        (.call .log (.number "2")))] := by decide
  refine ⟨hinj, rfl, hname, hvars.trans (by decide), hrearrange "z" hname, ?_, ?_⟩
  · exact hrelations.trans (by rw [hformulas]; decide)
  · exact hunsolvable.trans (by decide)

end Equation

end ClosedForm
