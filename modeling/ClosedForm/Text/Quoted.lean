import ClosedForm.Text.Printable

/-!
# Quoted characters

A character shown in a message stands between single quotes. Characters that would be invisible
there, or would run into the quote, are written as escapes.
-/

namespace ClosedForm.Text

/-- The letter that stands for a character behind a backslash. -/
def escapeLetter? : Char → Option Char
  | '\x00' => some '0'
  | '\t' => some 't'
  | '\n' => some 'n'
  | '\r' => some 'r'
  | '\\' => some '\\'
  | '\'' => some '\''
  | _ => none

/-- Lower-case hexadecimal digits without leading zeros. -/
def hexadecimal (n : Nat) : String :=
  String.ofList (Nat.toDigits 16 n)

/-- A character that is unprintable, or joins the one before it, is written by its code point. -/
def quoteChar (c : Char) : String :=
  let shown :=
    match escapeLetter? c with
    | some letter => String.ofList ['\\', letter]
    | none =>
      if extendsGrapheme c || !isPrintable c then
        "\\u\x7b" ++ hexadecimal c.toNat ++ "\x7d"
      else
        String.singleton c
  "'" ++ shown ++ "'"

example : quoteChar '"' = "'\"'" := by decide +kernel

example : quoteChar '\'' = "'\\''" := by decide +kernel

example : quoteChar '\u0301' = "'\\u\x7b301\x7d'" := by decide +kernel

end ClosedForm.Text
