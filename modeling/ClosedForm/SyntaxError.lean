import ClosedForm.Expr.Basic
import ClosedForm.Text.ByteOffset
import ClosedForm.Text.Quoted

/-!
# Syntax errors

A text that is no equation is refused with a cause and the byte offset of the place where the
cause shows.
-/

namespace ClosedForm

inductive SyntaxError.Cause where
  | unexpectedCharacter (c : Char)
  /-- An operator or an equals sign stands where an operand is due. -/
  | misplacedOperator (symbol : Char)
  | missingOperand
  /-- A closing parenthesis has no partner. -/
  | missingLeftParenthesis
  | missingRightParenthesis
  | missingFunctionParenthesis (f : Fn)
  | endOfLine
  | malformedExponent (read : String)
  | malformedNumber (read : String)
  /-- A character was asked for at the end of the text. -/
  | cursorExhausted
  deriving DecidableEq

structure SyntaxError where
  /-- The whole text that was read. -/
  equation : String
  cause : SyntaxError.Cause
  position : Nat
  deriving DecidableEq

namespace SyntaxError

def Cause.message : Cause → String
  | unexpectedCharacter c => "Unexpected character " ++ Text.quoteChar c ++ " encountered."
  | misplacedOperator symbol => "Misplaced operator, \"" ++ String.singleton symbol ++ "\"."
  | missingOperand => "Expected an operand but reached the end."
  | missingLeftParenthesis => "Extra right parenthesis."
  | missingRightParenthesis => "Missing right parenthesis."
  | missingFunctionParenthesis f =>
    "Missing left parenthesis after function name, \"" ++ f.name ++ "\"."
  | endOfLine => "End-of-line encountered in the middle of an expression."
  | malformedExponent read => "Not a valid exponent, beginning with: " ++ read
  | malformedNumber read => "Not a number or variable, beginning with: " ++ read
  | cursorExhausted => "Tried to read past the end of the equation."

/-- The distance from the token at fault to the place where the fault shows: a malformed number is
refused behind the part that could be read. -/
def Cause.offset : Cause → Nat
  | malformedExponent read | malformedNumber read => Text.byteSize read.toList
  | _ => 0

def message (error : SyntaxError) : String :=
  "Error in equation '" ++ error.equation ++ "'. " ++ error.cause.message

end SyntaxError

end ClosedForm
