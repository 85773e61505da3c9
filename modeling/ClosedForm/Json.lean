import ClosedForm.Text.Quoted

/-!
# JSON text

Values are written without spaces. In a string the quote, the backslash and the control characters
below U+0020 are escaped, and every other character stands for itself.
-/

namespace ClosedForm.Json

/-- The letter that stands for a character behind a backslash. -/
def escapeLetter? : Char → Option Char
  | '"' => some '"'
  | '\\' => some '\\'
  | '\x08' => some 'b'
  | '\t' => some 't'
  | '\n' => some 'n'
  | '\x0c' => some 'f'
  | '\r' => some 'r'
  | _ => none

def escape (c : Char) : List Char :=
  match escapeLetter? c with
  | some letter => ['\\', letter]
  | none =>
    if c.toNat < 0x20 then
      ['\\', 'u', '0', '0', Nat.digitChar (c.toNat / 16), Nat.digitChar (c.toNat % 16)]
    else
      [c]

def string (text : String) : String :=
  "\"" ++ String.ofList (text.toList.flatMap escape) ++ "\""

def array (items : List String) : String :=
  "[" ++ ",".intercalate items ++ "]"

def object (members : List (String × String)) : String :=
  "\x7b" ++ ",".intercalate (members.map fun m ↦ string m.1 ++ ":" ++ m.2) ++ "\x7d"

example : string "a\"\x01\n/é" = "\"a\\\"\\u0001\\n/é\"" := by decide +kernel

end ClosedForm.Json
