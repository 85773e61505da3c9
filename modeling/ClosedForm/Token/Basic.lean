import ClosedForm.Expr.Basic
import ClosedForm.Text.Alphabetic
import ClosedForm.Text.ByteOffset

/-!
# Tokens

The words and symbols an equation is written with. A token knows the text it was read from, so a
text is the texts of its tokens with blanks between them. Two kinds of token never make sense in
an equation and are kept for the error they lead to: a character that starts no token, and a word
that starts like a number and is none.
-/

namespace ClosedForm

/-- The characters that continue a number without being letters. -/
def isFigure (c : Char) : Bool :=
  c.isDigit || c == '_' || c == '.'

/-- The characters that continue a name. -/
def isNameChar (c : Char) : Bool :=
  Text.isAlphabetic c || isFigure c

/-- What spoils a number, with the text up to the place where it shows. -/
inductive NumberFault where
  | exponentWithoutDigits (read : String)
  | letterAfterNumber (read : String)
  deriving DecidableEq

def NumberFault.read : NumberFault → String
  | exponentWithoutDigits read => read
  | letterAfterNumber read => read

inductive Token where
  | number (text : String)
  | name (text : String)
  | function (f : Fn)
  | operator (op : BinaryOp)
  | equals
  | opening
  | closing
  | stray (c : Char)
  | malformed (fault : NumberFault)
  deriving DecidableEq

/-- The text a token is read from. -/
def Token.text : Token → String
  | number text => text
  | name text => text
  | function f => f.name
  | operator op => String.singleton op.symbol
  | equals => "="
  | opening => "("
  | closing => ")"
  | stray c => String.singleton c
  | malformed fault => fault.read

/-- A token at a place: its first character and the byte offset of that character. -/
structure Lexeme where
  token : Token
  first : Char
  start : Nat
  deriving DecidableEq

end ClosedForm
