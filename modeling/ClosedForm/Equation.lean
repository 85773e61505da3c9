import ClosedForm.Expr.Render
import ClosedForm.Expr.Variables

/-!
# Equations

An equation has at most one equals sign, at the top. Without one it is a bare expression, which
equates nothing.
-/

namespace ClosedForm

inductive Equation where
  | expression (e : Expr)
  | equality (left right : Expr)
  deriving DecidableEq

namespace Equation

/-- The expressions an equation consists of, from left to right. -/
def sides : Equation → List Expr
  | expression e => [e]
  | equality left right => [left, right]

/-- The variables of both sides, each once, in the order of first appearance. -/
def vars (q : Equation) : List String :=
  (q.sides.flatMap Expr.leaves).eraseDups

def render : Equation → String
  | expression e => e.render
  | equality left right => left.render ++ " = " ++ right.render

instance : ToString Equation := ⟨render⟩

end Equation

end ClosedForm
