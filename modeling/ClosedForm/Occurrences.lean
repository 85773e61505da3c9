import ClosedForm.Expr.Variables

/-!
# Counting occurrences up to two

To isolate a variable it matters whether it occurs never, once, or more often. Counts are kept no
further than that, and still add up: the count of a whole is the sum of the counts of its parts.
-/

namespace ClosedForm

inductive Occurrences where
  | none
  | once
  | many
  deriving DecidableEq

namespace Occurrences

protected def add : Occurrences → Occurrences → Occurrences
  | none, other => other
  | other, none => other
  | _, _ => many

instance : Add Occurrences := ⟨Occurrences.add⟩

/-- What a number of occurrences counts as. -/
def ofCount : Nat → Occurrences
  | 0 => none
  | 1 => once
  | _ + 2 => many

theorem ofCount_add (m n : Nat) : ofCount (m + n) = ofCount m + ofCount n := by
  match m, n with
  | 0, n => simp only [Nat.zero_add]; rfl
  | 1, 0 => rfl
  | 1, 1 => rfl
  | 1, n + 2 => rw [Nat.add_comm]; rfl
  | m + 2, 0 => rfl
  | m + 2, 1 => rfl
  | m + 2, n + 2 => rw [← Nat.add_assoc]; rfl

end Occurrences

/-- How often a variable stands in an expression. -/
def Expr.occurrences (name : String) : Expr → Occurrences
  | number _ => .none
  | var other => if other = name then .once else .none
  | unary _ operand => operand.occurrences name
  | binary _ left right => left.occurrences name + right.occurrences name

theorem Expr.occurrences_eq (name : String) (e : Expr) :
    e.occurrences name = .ofCount (e.leaves.count name) := by
  induction e with
  | number text => rfl
  | var other =>
    by_cases h : other = name <;> simp [occurrences, leaves, h, Occurrences.ofCount]
  | unary op operand ih => exact ih
  | binary op left right ihl ihr =>
    rw [occurrences, leaves, List.count_append, Occurrences.ofCount_add, ihl, ihr]

end ClosedForm
