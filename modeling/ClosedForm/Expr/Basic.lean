/-!
# Expressions

An expression is built from numbers and variables by negation, named functions and five binary
operators. Numbers and variables keep the text they were written with: reading a number is the
business of evaluation, and `1.0` and `1.00` are different expressions.
-/

namespace ClosedForm

/-- The named functions. An equation is written with the first five; the others are needed to
undo them. -/
inductive Fn where
  | sin
  | cos
  | tan
  | log
  | abs
  | asin
  | acos
  | atan
  | exp
  deriving DecidableEq

namespace Fn

def name : Fn → String
  | sin => "sin"
  | cos => "cos"
  | tan => "tan"
  | log => "log"
  | abs => "abs"
  | asin => "asin"
  | acos => "acos"
  | atan => "atan"
  | exp => "exp"

def all : List Fn :=
  [sin, cos, tan, log, abs, asin, acos, atan, exp]

/-- The functions whose names are reserved in equations. -/
def writable : List Fn :=
  [sin, cos, tan, log, abs]

def ofName? (name : String) : Option Fn :=
  writable.find? fun f ↦ f.name == name

theorem name_of_ofName? {word : String} {f : Fn} (h : ofName? word = some f) : f.name = word := by
  have hfound : (f.name == word) = true := by
    unfold ofName? at h
    simpa only using List.find?_some h
  exact eq_of_beq hfound

/-- The function that undoes this one on the branch where both are defined. -/
def inverse? : Fn → Option Fn
  | sin => some asin
  | cos => some acos
  | tan => some atan
  | log => some exp
  | abs => none
  | asin => some sin
  | acos => some cos
  | atan => some tan
  | exp => some log

@[simp] theorem inverse?_eq_none_iff (f : Fn) : f.inverse? = none ↔ f = abs := by
  cases f <;> simp [inverse?]

end Fn

inductive UnaryOp where
  | negate
  | call (f : Fn)
  deriving DecidableEq

inductive BinaryOp where
  | plus
  | minus
  | times
  | divide
  | power
  deriving DecidableEq

namespace BinaryOp

def symbol : BinaryOp → Char
  | plus => '+'
  | minus => '-'
  | times => '*'
  | divide => '/'
  | power => '^'

def all : List BinaryOp :=
  [plus, minus, times, divide, power]

def ofSymbol? (c : Char) : Option BinaryOp :=
  all.find? fun op ↦ op.symbol == c

/-- How tightly an operator binds. Operators of one precedence group to the left, powers
included. -/
def precedence : BinaryOp → Nat
  | plus | minus => 1
  | times | divide => 2
  | power => 3

@[simp] theorem ofSymbol?_symbol (op : BinaryOp) : ofSymbol? op.symbol = some op := by
  cases op <;> rfl

theorem ofSymbol?_eq_some_iff {c : Char} {op : BinaryOp} :
    ofSymbol? c = some op ↔ op.symbol = c := by
  constructor
  · intro h
    simpa using List.find?_some h
  · rintro rfl
    exact ofSymbol?_symbol op

end BinaryOp

inductive Expr where
  | number (text : String)
  | var (name : String)
  | unary (op : UnaryOp) (operand : Expr)
  | binary (op : BinaryOp) (left right : Expr)
  deriving DecidableEq

namespace Expr

abbrev neg (operand : Expr) : Expr :=
  .unary .negate operand

abbrev call (f : Fn) (argument : Expr) : Expr :=
  .unary (.call f) argument

abbrev add (left right : Expr) : Expr :=
  .binary .plus left right

abbrev sub (left right : Expr) : Expr :=
  .binary .minus left right

abbrev mul (left right : Expr) : Expr :=
  .binary .times left right

abbrev div (left right : Expr) : Expr :=
  .binary .divide left right

abbrev pow (base exponent : Expr) : Expr :=
  .binary .power base exponent

end Expr

end ClosedForm
