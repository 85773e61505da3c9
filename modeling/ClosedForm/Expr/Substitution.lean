import ClosedForm.Expr.Variables

/-!
# Substitution

Putting an expression in the place of a variable. Where the variable does not appear nothing
changes (`substitute_of_notMem`), and elsewhere the leaves of the expression take its place
(`leaves_substitute`).
-/

namespace ClosedForm.Expr

/-- Puts `value` in the place of every leaf `name`, all at once: leaves of `value` that carry the
same name stay. -/
def substitute (e : Expr) (name : String) (value : Expr) : Expr :=
  match e with
  | number text => number text
  | var other => if other = name then value else var other
  | unary op operand => unary op (operand.substitute name value)
  | binary op left right => binary op (left.substitute name value) (right.substitute name value)

theorem substitute_of_notMem {e : Expr} {name : String} (h : name ∉ e.leaves) (value : Expr) :
    e.substitute name value = e := by
  induction e with
  | number text => rfl
  | var other =>
    have hne : other ≠ name := by simpa [leaves, eq_comm] using h
    rw [substitute, if_neg hne]
  | unary op operand ih => rw [substitute, ih h]
  | binary op left right ihl ihr =>
    rw [leaves, List.mem_append, not_or] at h
    rw [substitute, ihl h.1, ihr h.2]

theorem leaves_substitute (e : Expr) (name : String) (value : Expr) :
    (e.substitute name value).leaves =
      e.leaves.flatMap fun other ↦ if other = name then value.leaves else [other] := by
  induction e with
  | number text => rfl
  | var other => by_cases h : other = name <;> simp [substitute, leaves, h]
  | unary op operand ih => exact ih
  | binary op left right ihl ihr => simp [substitute, leaves, ihl, ihr]

end ClosedForm.Expr
