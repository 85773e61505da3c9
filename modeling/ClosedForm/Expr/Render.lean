import ClosedForm.Expr.Basic

/-!
# Expressions as text

Binary operators stand between spaces, except `^`, which binds too tightly to need them. An
operand that is itself a negation or a binary operation is put in parentheses, whatever the two
operators are, so the text shows the tree without appeal to precedence. An argument already
stands between the parentheses of its call.
-/

namespace ClosedForm.Expr

/-- Does the expression need parentheses when it is an operand? -/
def isCompound : Expr → Bool
  | number _ | var _ => false
  | unary .negate _ => true
  | unary (.call _) _ => false
  | binary _ _ _ => true

/-- The text of an operand, given the text it has on its own. -/
def enclose (operand : Expr) (text : String) : String :=
  if operand.isCompound then "(" ++ text ++ ")" else text

/-- The text of an operator between its operands. -/
def separator : BinaryOp → String
  | .power => "^"
  | op => String.ofList [' ', op.symbol, ' ']

def render : Expr → String
  | number text => text
  | var name => name
  | unary .negate operand => "-" ++ operand.enclose operand.render
  | unary (.call f) argument => f.name ++ "(" ++ argument.render ++ ")"
  | binary op left right =>
    left.enclose left.render ++ separator op ++ right.enclose right.render

instance : ToString Expr := ⟨render⟩

end ClosedForm.Expr
