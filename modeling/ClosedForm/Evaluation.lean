import ClosedForm.Decimal
import ClosedForm.Expr.Basic

/-!
# The value of an expression

An interpretation says what the leaves and the operations of an expression mean, possibly with
failures or other effects, and `denote` extends it to all expressions. Operands are taken from left
to right, so the first failing leaf decides.

`evaluate` is the interpretation by floats: angles are in radians and `log` is the natural
logarithm.
-/

namespace ClosedForm

universe u v

/-- The meaning of leaves and operations in `α`, with the effects of `m`. -/
structure Interpretation (m : Type u → Type v) (α : Type u) where
  number : String → m α
  var : String → m α
  unary : UnaryOp → α → m α
  binary : BinaryOp → α → α → m α

def Expr.denote {m : Type u → Type v} [Monad m] {α : Type u} (meaning : Interpretation m α) :
    Expr → m α
  | number text => meaning.number text
  | var name => meaning.var name
  | unary op operand => do
    let x ← operand.denote meaning
    meaning.unary op x
  | binary op left right => do
    let x ← left.denote meaning
    let y ← right.denote meaning
    meaning.binary op x y

inductive EvalError where
  | unknownVariable (name : String)
  | invalidNumber (text : String)
  deriving DecidableEq

def EvalError.message : EvalError → String
  | unknownVariable name => "No value was provided for \"" ++ name ++ "\""
  | invalidNumber text => "\"" ++ text ++ "\" isn't a valid number"

def Fn.apply : Fn → Float → Float
  | sin => Float.sin
  | cos => Float.cos
  | tan => Float.tan
  | log => Float.log
  | abs => Float.abs
  | asin => Float.asin
  | acos => Float.acos
  | atan => Float.atan
  | exp => Float.exp

def UnaryOp.apply : UnaryOp → Float → Float
  | negate => fun x ↦ -x
  | call f => f.apply

def BinaryOp.apply : BinaryOp → Float → Float → Float
  | plus => fun x y ↦ x + y
  | minus => fun x y ↦ x - y
  | times => fun x y ↦ x * y
  | divide => fun x y ↦ x / y
  | power => Float.pow

namespace Interpretation

/-- Leaves fail when a number cannot be read or a variable has no value; operations never do. -/
def floats (lookup : String → Option Float) : Interpretation (Except EvalError) Float where
  number text :=
    match Decimal.readFloat? text with
    | some x => .ok x
    | none => .error (.invalidNumber text)
  var name :=
    match lookup name with
    | some x => .ok x
    | none => .error (.unknownVariable name)
  unary op x := .ok (op.apply x)
  binary op x y := .ok (op.apply x y)

end Interpretation

def Expr.evaluate (lookup : String → Option Float) (e : Expr) : Except EvalError Float :=
  e.denote (Interpretation.floats lookup)

end ClosedForm
