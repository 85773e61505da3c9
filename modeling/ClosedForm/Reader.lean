import ClosedForm.Equation
import ClosedForm.SyntaxError
import ClosedForm.Token.Scan

/-!
# Reading expressions and equations

The reader goes through the tokens of a text once, from left to right. What it has begun and not
finished waits in a stack of frames: a negation, an operation with its left operand, an open
parenthesis, a call. A completed operand is taken by the frames above it as long as these bind at
least as tightly as the operator that comes next, so every operator groups to the left. A leading
minus sign binds like a sum: it negates the first term and nothing behind it.

One token decides each step. A fault is therefore found at the first token that cannot go on, and
its cause depends on that token and on the frames, never on the text behind it.
-/

namespace ClosedForm

open SyntaxError (Cause)

namespace Reader

/-- Something begun, waiting for an operand to complete it. -/
inductive Frame where
  | negation
  | operation (left : Expr) (op : BinaryOp)
  | parenthesis
  | call (f : Fn)
  deriving DecidableEq

/-- How tightly a frame holds the operand it waits for; brackets let go only when closed. -/
def Frame.precedence : Frame → Nat
  | negation => 1
  | operation _ op => op.precedence
  | parenthesis | call _ => 0

def Frame.complete : Frame → Expr → Expr
  | negation, operand => .neg operand
  | operation left op, right => .binary op left right
  | parenthesis, inner => inner
  | call f, argument => .call f argument

/-- Hands a completed operand to the innermost frames that bind at least as tightly as `level`. -/
def settle (level : Nat) : List Frame → Expr → List Frame × Expr
  | [], operand => ([], operand)
  | frame :: frames, operand =>
    if level ≤ frame.precedence then
      settle level frames (frame.complete operand)
    else
      (frame :: frames, operand)

/-- What the next token is expected to be. -/
inductive Stage where
  /-- The first token of an expression, which may be a minus sign. -/
  | start
  | operand
  /-- The parenthesis behind the name of a function. -/
  | argument (f : Fn)
  /-- Whatever may follow the completed operand. -/
  | operator (completed : Expr)
  deriving DecidableEq

structure State where
  /-- Innermost first. -/
  frames : List Frame
  stage : Stage
  deriving DecidableEq

def State.initial : State :=
  ⟨[], .start⟩

inductive Verdict where
  | next (state : State)
  /-- The expression is complete and the token does not belong to it. -/
  | stop (e : Expr)
  | fail (cause : Cause)

def numberCause : NumberFault → Cause
  | .exponentWithoutDigits read => .malformedExponent read
  | .letterAfterNumber read => .malformedNumber read

/-- What is wrong with a character that is due to be an operand and starts none. -/
def strayCause (c : Char) : Cause :=
  if c = '\n' ∨ c = '\r' then .endOfLine else .unexpectedCharacter c

/-- The step at a token that has to start an operand. -/
def readOperand (frames : List Frame) : Token → Verdict
  | .number text => .next ⟨frames, .operator (.number text)⟩
  | .name text => .next ⟨frames, .operator (.var text)⟩
  | .function f => .next ⟨frames, .argument f⟩
  | .opening => .next ⟨.parenthesis :: frames, .start⟩
  | .closing => .fail .missingLeftParenthesis
  | .operator op => .fail (.misplacedOperator op.symbol)
  | .equals => .fail (.misplacedOperator '=')
  | .malformed fault => .fail (numberCause fault)
  | .stray c => .fail (strayCause c)

/-- The step at a token behind a completed operand. -/
def readOperator (frames : List Frame) (completed : Expr) : Token → Verdict
  | .operator op =>
    let settled := settle op.precedence frames completed
    .next ⟨.operation settled.2 op :: settled.1, .operand⟩
  | token =>
    match settle 1 frames completed, token with
    | ([], e), _ => .stop e
    | (bracket :: outer, e), .closing => .next ⟨outer, .operator (bracket.complete e)⟩
    | (_ :: _, _), _ => .fail .missingRightParenthesis

def State.step (state : State) (token : Token) : Verdict :=
  match state.stage, token with
  | .start, .operator .minus => .next ⟨.negation :: state.frames, .operand⟩
  | .start, token => readOperand state.frames token
  | .operand, token => readOperand state.frames token
  | .argument f, .opening => .next ⟨.call f :: state.frames, .start⟩
  | .argument f, _ => .fail (.missingFunctionParenthesis f)
  | .operator completed, token => readOperator state.frames completed token

/-- The expression read when the text ends here. -/
def State.finish (state : State) : Except Cause Expr :=
  match state.stage with
  | .start | .operand => .error .missingOperand
  | .argument f => .error (.missingFunctionParenthesis f)
  | .operator completed =>
    match settle 1 state.frames completed with
    | ([], e) => .ok e
    | (_ :: _, _) => .error .missingRightParenthesis

/-- A cause and the byte offset where it shows. -/
structure Fault where
  cause : Cause
  position : Nat
  deriving DecidableEq

/-- Reads the longest expression at the front of the tokens of a text that ends at byte `limit`,
and returns it with the tokens behind it. -/
def readExpr (limit : Nat) (state : State) : List Lexeme → Except Fault (Expr × List Lexeme)
  | [] =>
    match state.finish with
    | .ok e => .ok (e, [])
    | .error cause => .error ⟨cause, limit⟩
  | lexeme :: rest =>
    match state.step lexeme.token with
    | .next state => readExpr limit state rest
    | .stop e => .ok (e, lexeme :: rest)
    | .fail cause => .error ⟨cause, lexeme.start + cause.offset⟩

def isEmptyToken : Token → Bool
  | .stray c => Text.isWhiteSpace c
  | _ => false

/-- What is wrong with text behind a complete equation, by its first character. -/
def trailingCause (c : Char) : Cause :=
  if c = '\n' ∨ c = '\r' then .endOfLine
  else if c = ')' then .missingLeftParenthesis
  else if c = '=' then .misplacedOperator '='
  else .unexpectedCharacter c

/-- Only white space may follow an equation. Anything else makes the first character behind the
equation wrong, be it white space or not. -/
def readEnd (trailing : List Lexeme) : Except Fault Unit :=
  match trailing with
  | [] => .ok ()
  | lexeme :: rest =>
    if (lexeme :: rest).all fun l ↦ isEmptyToken l.token then
      .ok ()
    else
      .error ⟨trailingCause lexeme.first, lexeme.start⟩

/-- Reads a text that consists of one expression. -/
def readWhole (limit : Nat) (tokens : List Lexeme) : Except Fault Expr := do
  let (e, trailing) ← readExpr limit .initial tokens
  readEnd trailing
  return e

/-- Reads a text with at most one equals sign between two expressions. -/
def readEquation (limit : Nat) (tokens : List Lexeme) : Except Fault Equation := do
  let (left, trailing) ← readExpr limit .initial tokens
  match trailing with
  | ⟨.equals, _, _⟩ :: rest =>
    let right ← readWhole limit rest
    return .equality left right
  | _ =>
    readEnd trailing
    return .expression left

def Fault.toSyntaxError (text : String) (fault : Fault) : SyntaxError :=
  ⟨text, fault.cause, fault.position⟩

end Reader

/-- Reads an expression from a text. -/
def Expr.parse (text : String) : Except SyntaxError Expr :=
  (Reader.readWhole (Text.byteSize text.toList) (lexemes text)).mapError (·.toSyntaxError text)

/-- Reads an equation, or an expression standing for itself, from a text. -/
def Equation.parse (text : String) : Except SyntaxError Equation :=
  (Reader.readEquation (Text.byteSize text.toList) (lexemes text)).mapError (·.toSyntaxError text)

end ClosedForm
