import ClosedForm.Expr.Basic

/-!
# The variables of an expression

`leaves` lists the variables from left to right as often as they stand there; `vars` lists
each name once, where it first appears. The functions are listed from left to right, too.
-/

namespace ClosedForm.Expr

/-- The names of the variable leaves from left to right, with repetitions. -/
def leaves : Expr → List String
  | number _ => []
  | var name => [name]
  | unary _ operand => operand.leaves
  | binary _ left right => left.leaves ++ right.leaves

def vars (e : Expr) : List String :=
  e.leaves.eraseDups

/-- Does the variable appear in the expression? -/
def mentions (e : Expr) (name : String) : Bool :=
  match e with
  | number _ => false
  | var other => other == name
  | unary _ operand => operand.mentions name
  | binary _ left right => left.mentions name || right.mentions name

/-- The functions called anywhere in the expression. -/
def functions : Expr → List Fn
  | number _ | var _ => []
  | unary .negate operand => operand.functions
  | unary (.call f) operand => f :: operand.functions
  | binary _ left right => left.functions ++ right.functions

/-- Every subexpression, operands before the operation they belong to. -/
def subterms : Expr → List Expr
  | number text => [number text]
  | var name => [var name]
  | unary op operand => operand.subterms ++ [unary op operand]
  | binary op left right => left.subterms ++ right.subterms ++ [binary op left right]

theorem mentions_eq_true_iff {e : Expr} {name : String} :
    e.mentions name = true ↔ name ∈ e.leaves := by
  induction e with
  | number text => simp [mentions, leaves]
  | var other =>
    rw [mentions, leaves, beq_iff_eq, List.mem_singleton]
    exact eq_comm
  | unary op operand ih => simp [mentions, leaves, ih]
  | binary op left right ihl ihr => simp [mentions, leaves, ihl, ihr]

end ClosedForm.Expr
