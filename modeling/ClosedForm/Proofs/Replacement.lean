import ClosedForm.Proofs.Places

/-!
# Replacing variables

Expressions may be put in the place of all variables at once. If one variable is only renamed and
its new name comes in nowhere else, then the places of that variable stay what they are, with the
replacement made in the operands around them. Undoing layers does not look into operands, so
isolating the variable before or after the replacement leads to the same formula or to the same
obstacle (`rearrange_replace`). Substituting for another variable is the case in which no name
changes (`rearrange_substitute`).
-/

namespace ClosedForm

namespace Expr

variable {values : String → Expr} {name newName : String}

/-- Puts an expression in the place of each variable, all at once. -/
def replace (values : String → Expr) : Expr → Expr
  | number text => number text
  | var name => values name
  | unary op operand => unary op (operand.replace values)
  | binary op left right => binary op (left.replace values) (right.replace values)

/-- Substituting for one variable leaves the others to themselves. -/
theorem substitute_eq_replace (e : Expr) (name : String) (value : Expr) :
    e.substitute name value = e.replace fun other ↦ if other = name then value else var other := by
  induction e with
  | number text | var other => rfl
  | unary op operand ih => rw [substitute, replace, ih]
  | binary op left right ihl ihr => rw [substitute, replace, ihl, ihr]

/-- The variable gets the new name, and what the other names are replaced by does not have it. -/
structure Renames (values : String → Expr) (name newName : String) (names : List String) :
    Prop where
  self : values name = var newName
  others : ∀ other ∈ names, other ≠ name → newName ∉ (values other).leaves

theorem Renames.mono {names fewer : List String} (h : Renames values name newName names)
    (hfewer : ∀ other ∈ fewer, other ∈ names) : Renames values name newName fewer :=
  ⟨h.self, fun other hother ↦ h.others other (hfewer other hother)⟩

end Expr

namespace Layer

variable (values : String → Expr)

/-- Replaces the variables of the other operand. -/
def replace : Layer → Layer
  | negation => negation
  | call f => call f
  | leftOf op right => leftOf op (right.replace values)
  | rightOf left op => rightOf (left.replace values) op

theorem undo_replace (layer : Layer) (known : Expr) :
    (layer.replace values).undo (known.replace values) =
      (layer.undo known).map (·.replace values) := by
  cases layer with
  | negation => rfl
  | call f => cases f <;> rfl
  | leftOf op right | rightOf left op => cases op <;> rfl

theorem undoAll_replace (layers : List Layer) (known : Expr) :
    undoAll (layers.map (replace values)) (known.replace values) =
      (undoAll layers known).map (·.replace values) := by
  induction layers generalizing known with
  | nil => rfl
  | cons layer layers ih =>
    rw [List.map_cons, undoAll, undoAll, undo_replace]
    cases layer.undo known with
    | ok next => exact ih next
    | error f => rfl

end Layer

namespace Expr

variable {values : String → Expr} {name newName : String}

/-- The places of the renamed variable are those it had before. -/
theorem places_replace {e : Expr} (h : Renames values name newName e.leaves) :
    (e.replace values).places newName =
      (e.places name).map (List.map (Layer.replace values)) := by
  induction e with
  | number text => rfl
  | var other =>
    by_cases hother : other = name
    · subst hother
      rw [replace, h.self]
      simp [places]
    · have hfree := h.others other List.mem_cons_self hother
      rw [replace, places_eq_nil_iff.mpr hfree, places, if_neg hother, List.map_nil]
  | unary op operand ih =>
    have hplaces := ih h
    cases op with
    | negate | call f => simp [replace, places, hplaces, Layer.replace, Function.comp_def]
  | binary op left right ihl ihr =>
    have hleft := ihl (h.mono fun _ ↦ List.mem_append_left _)
    have hright := ihr (h.mono fun _ ↦ List.mem_append_right _)
    simp [replace, places, hleft, hright, Layer.replace, Function.comp_def]

end Expr

namespace Arrangement

theorem solve_replace (values : String → Expr) (subject newSubject : String) (layers : List Layer)
    (known : Expr) :
    (Arrangement.mk newSubject (layers.map (.replace values)) (known.replace values)).solve =
      (Arrangement.mk subject layers known).solve.map (·.replace values) := by
  rw [solve, solve, Layer.undoAll_replace]
  cases Layer.undoAll layers known <;> rfl

end Arrangement

namespace Equation

variable {values : String → Expr} {name newName : String}

/-- A variable that is renamed while other variables are replaced has the same formula, with the
variables replaced, or meets the same obstacle. -/
theorem rearrange_replace {left right : Expr}
    (h : Expr.Renames values name newName (left.leaves ++ right.leaves)) :
    (equality (left.replace values) (right.replace values)).rearrange (.whole newName) =
      ((equality left right).rearrange (.whole name)).map (·.replace values) := by
  have hleft := Expr.places_replace (h.mono fun _ ↦ List.mem_append_left _)
  have hright := Expr.places_replace (h.mono fun _ ↦ List.mem_append_right _)
  have hplaces (name : String) (side : Side) (e : Expr) :
      (Census.whole name).places side e = e.places name := rfl
  simp only [rearrange, arrange, hplaces, hleft, hright]
  rcases left.places name with _ | ⟨layers, _ | ⟨second, more⟩⟩
  · rcases right.places name with _ | ⟨layers, _ | ⟨second, more⟩⟩
    · rfl
    · exact Arrangement.solve_replace values name newName layers left
    · rfl
  · rcases right.places name with _ | ⟨other, _ | ⟨second, more⟩⟩
    · exact Arrangement.solve_replace values name newName layers right
    · rfl
    · rfl
  · rcases right.places name with _ | ⟨other, _ | ⟨third, rest⟩⟩ <;> rfl

/-- Isolating a variable commutes with substituting for another one. -/
theorem rearrange_substitute {left right value : Expr} {name other : String} (hne : other ≠ name)
    (hvalue : value.mentions name = false) :
    (equality (left.substitute other value) (right.substitute other value)).rearrange
        (.whole name) =
      ((equality left right).rearrange (.whole name)).map (·.substitute other value) := by
  let values (leaf : String) : Expr := if leaf = other then value else .var leaf
  have hrenames : Expr.Renames values name name (left.leaves ++ right.leaves) := by
    refine ⟨if_neg hne.symm, fun leaf _ hleaf ↦ ?_⟩
    by_cases hother : leaf = other
    · have hfree : name ∉ value.leaves := fun hmem ↦ by
        rw [Expr.mentions_eq_true_iff.mpr hmem] at hvalue
        cases hvalue
      simpa [values, hother] using hfree
    · simpa [values, hother, Expr.leaves] using hleaf.symm
  simp only [Expr.substitute_eq_replace]
  exact rearrange_replace hrenames

/-- In `y = a^(2 * x)` an absolute value may be put in the place of `a` before or after `x` is
isolated. -/
theorem rearrange_substitute_of_absolute_value :
    let value := Expr.add (.call .abs (.var "b")) (.var "y")
    let formula := Expr.div (.div (.call .log (.var "y")) (.call .log (.var "a"))) (.number "2")
    let right (base : Expr) := Expr.pow base (.mul (.number "2") (.var "x"))
    "a" ≠ "x" ∧ value.mentions "x" = false ∧
      (equality (.var "y") (right (.var "a"))).rearrange (.whole "x") = .ok formula ∧
      (equality (.var "y") (right value)).rearrange (.whole "x") =
        .ok (formula.substitute "a" value) := by
  intro value formula right
  have hne : "a" ≠ "x" := by decide
  have hvalue : value.mentions "x" = false := by decide
  have hformula : (equality (.var "y") (right (.var "a"))).rearrange (.whole "x") =
      .ok formula := rfl
  have hcommutes := @rearrange_substitute (.var "y") (right (.var "a")) value "x" "a" hne hvalue
  rw [hformula] at hcommutes
  exact ⟨hne, hvalue, hformula, hcommutes⟩

end Equation

end ClosedForm
