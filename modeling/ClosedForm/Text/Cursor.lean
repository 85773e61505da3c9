import ClosedForm.SyntaxError
import ClosedForm.Text.ByteOffset
import ClosedForm.Text.WhiteSpace

/-!
# Cursors

A cursor stands between two characters of a text, and its position is the number of bytes before
it. The characters on either side are all it holds, so it is always on a character boundary and
the text never changes as it moves.
-/

namespace ClosedForm.Text

/-- What is shown at the end of a text, where no character is next. It may stand in a text, too. -/
def endOfInput : Char :=
  '\x00'

structure Cursor where
  /-- The characters passed, the nearest one first. -/
  behind : List Char
  ahead : List Char
  deriving DecidableEq

namespace Cursor

def start (text : String) : Cursor :=
  ⟨[], text.toList⟩

/-- The whole text. -/
def text (c : Cursor) : String :=
  String.ofList (c.behind.reverse ++ c.ahead)

def position (c : Cursor) : Nat :=
  byteSize c.behind

def isAtEnd (c : Cursor) : Bool :=
  c.ahead.isEmpty

def rest (c : Cursor) : String :=
  String.ofList c.ahead

/-- The next character, if there is one. -/
def peek? (c : Cursor) : Option Char :=
  c.ahead.head?

/-- The next character, or `endOfInput`. -/
def peek (c : Cursor) : Char :=
  c.peek?.getD endOfInput

/-- Passes the next character. -/
def consume (c : Cursor) : Except SyntaxError (Char × Cursor) :=
  match c.ahead with
  | [] => .error ⟨c.text, .cursorExhausted, c.position⟩
  | next :: ahead => .ok (next, ⟨next :: c.behind, ahead⟩)

/-- Passes the spaces and tabs that come next, but no line end. -/
def skipBlanks (c : Cursor) : Cursor :=
  ⟨(c.ahead.takeWhile isBlank).reverse ++ c.behind, c.ahead.dropWhile isBlank⟩

/-- The text between an earlier position and the cursor; none if that position is further on or
inside a character. -/
def consumedSince? (c : Cursor) (earlier : Nat) : Option String :=
  (splitAtByte? c.behind.reverse earlier).map fun parts ↦ String.ofList parts.2

@[simp] theorem text_start (text : String) : (start text).text = text := by
  simp [start, Cursor.text]

@[simp] theorem text_skipBlanks (c : Cursor) : c.skipBlanks.text = c.text := by
  simp [skipBlanks, text]

theorem text_of_consume {c next : Cursor} {passed : Char} (h : c.consume = .ok (passed, next)) :
    next.text = c.text := by
  cases hahead : c.ahead with
  | nil => simp [consume, hahead] at h
  | cons d ds =>
    simp only [consume, hahead, Except.ok.injEq, Prod.mk.injEq] at h
    obtain ⟨rfl, rfl⟩ := h
    simp [text, hahead]

/-- What was passed since the beginning and what is ahead make up the text. -/
theorem consumedSince?_zero (c : Cursor) :
    c.consumedSince? 0 = some (String.ofList c.behind.reverse) := by
  cases h : c.behind.reverse <;> simp [consumedSince?, splitAtByte?, h]

end Cursor

end ClosedForm.Text
