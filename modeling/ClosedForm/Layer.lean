import ClosedForm.Expr.Basic

/-!
# Layers around a subexpression

Seen from a subexpression, each operation above it is a layer: the operation together with its
other operand. A place in an expression is the list of layers around it from the outside in, and
`plugAll` puts a subexpression back into its place.

A layer is undone by applying the inverse operation to the other side of an equation. Absolute
values have no inverse; they are the only obstacle a layer can be.
-/

namespace ClosedForm

inductive Layer where
  | negation
  | call (f : Fn)
  /-- The operation with its left operand missing. -/
  | leftOf (op : BinaryOp) (right : Expr)
  /-- The operation with its right operand missing. -/
  | rightOf (left : Expr) (op : BinaryOp)
  deriving DecidableEq

namespace Layer

def plug : Layer → Expr → Expr
  | negation, e => .neg e
  | call f, e => .call f e
  | leftOf op right, e => .binary op e right
  | rightOf left op, e => .binary op left e

def plugAll (layers : List Layer) (e : Expr) : Expr :=
  layers.foldr plug e

/-- The left operand that gives `known` with the right operand. A power is undone by the root. -/
def solveLeft (op : BinaryOp) (known right : Expr) : Expr :=
  match op with
  | .plus => .sub known right
  | .minus => .add known right
  | .times => .div known right
  | .divide => .mul known right
  | .power => .pow known (.div (.number "1") right)

/-- The right operand that gives `known` with the left operand. A power is undone by logarithms. -/
def solveRight (op : BinaryOp) (known left : Expr) : Expr :=
  match op with
  | .plus => .sub known left
  | .minus => .sub left known
  | .times => .div known left
  | .divide => .div left known
  | .power => .div (.call .log known) (.call .log left)

/-- What the content of a layer equals when the whole equals `known`. The error is the function
that cannot be undone. -/
def undo : Layer → Expr → Except Fn Expr
  | negation, known => .ok (.neg known)
  | call f, known =>
    match f.inverse? with
    | some inverse => .ok (.call inverse known)
    | none => .error f
  | leftOf op right, known => .ok (solveLeft op known right)
  | rightOf left op, known => .ok (solveRight op known left)

/-- Undoes layers from the outermost one inwards. -/
def undoAll : List Layer → Expr → Except Fn Expr
  | [], known => .ok known
  | layer :: layers, known => do
    let known ← layer.undo known
    undoAll layers known

theorem undo_eq_error_iff (layer : Layer) (known : Expr) (f : Fn) :
    layer.undo known = .error f ↔ layer = call .abs ∧ f = .abs := by
  cases layer with
  | negation => simp [undo]
  | call g => cases g <;> simp [undo, Fn.inverse?, eq_comm]
  | leftOf op right => simp [undo]
  | rightOf left op => simp [undo]

end Layer

namespace Expr

/-- The places of a variable, from left to right. -/
def places (name : String) : Expr → List (List Layer)
  | number _ => []
  | var other => if other = name then [[]] else []
  | unary .negate operand => (operand.places name).map (.negation :: ·)
  | unary (.call f) operand => (operand.places name).map (.call f :: ·)
  | binary op left right =>
    (left.places name).map (.leftOf op right :: ·) ++
      (right.places name).map (.rightOf left op :: ·)

theorem plugAll_of_mem_places {name : String} {e : Expr} {layers : List Layer}
    (h : layers ∈ e.places name) : Layer.plugAll layers (.var name) = e := by
  induction e generalizing layers with
  | number text => cases h
  | var other =>
    rw [places] at h
    split at h
    · next heq =>
      rw [List.mem_singleton.mp h, heq]
      rfl
    · cases h
  | unary op operand ih =>
    cases op with
    | negate | call f =>
      obtain ⟨inner, hinner, rfl⟩ := List.mem_map.mp h
      exact congrArg _ (ih hinner)
  | binary op left right ihl ihr =>
    rcases List.mem_append.mp h with hleft | hright
    · obtain ⟨inner, hinner, rfl⟩ := List.mem_map.mp hleft
      exact congrArg (binary op · right) (ihl hinner)
    · obtain ⟨inner, hinner, rfl⟩ := List.mem_map.mp hright
      exact congrArg (binary op left) (ihr hinner)

end Expr

end ClosedForm
