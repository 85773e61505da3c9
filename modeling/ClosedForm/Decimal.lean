/-!
# Decimal numerals

A numeral is a sign, digits with at most one point among them, and an exponent, each of which but
the digits may be missing; or the word `inf`, `infinity` or `nan` in any mix of cases. Reading
splits a text into these parts exactly. The value of a numeral is rounded once, to the nearest
float and to even in the middle.
-/

namespace ClosedForm

/-- The digits as a whole number, and the power of ten it is scaled by. -/
structure Decimal where
  digits : Nat
  exponent : Int
  deriving DecidableEq

namespace Decimal

/-- The whole number written by a run of digits. -/
def digitsValue (cs : List Char) : Nat :=
  cs.foldl (fun n c ↦ 10 * n + (c.toNat - '0'.toNat)) 0

/-- A sign in front, if there is one: is it a minus? -/
def splitSign : List Char → Bool × List Char
  | [] => (false, [])
  | c :: cs => if c = '-' then (true, cs) else if c = '+' then (false, cs) else (false, c :: cs)

/-- The integer written by a signed run of digits that fills the text. -/
def readInt? (cs : List Char) : Option Int :=
  let (negative, digits) := splitSign cs
  if digits ≠ [] ∧ digits.all Char.isDigit then
    some (if negative then -(digitsValue digits : Int) else digitsValue digits)
  else
    none

/-- The exponent at the end of a numeral; a missing one is zero. -/
def readExponent? : List Char → Option Int
  | [] => some 0
  | c :: cs => if c = 'e' ∨ c = 'E' then readInt? cs else none

/-- The fraction behind the whole part: its digits and what follows them. -/
def splitFraction : List Char → List Char × List Char
  | [] => ([], [])
  | c :: cs =>
    if c = '.' then (cs.takeWhile Char.isDigit, cs.dropWhile Char.isDigit) else ([], c :: cs)

/-- Reads a numeral without sign. -/
def ofChars? (cs : List Char) : Option Decimal := do
  let whole := cs.takeWhile Char.isDigit
  let (fraction, rest) := splitFraction (cs.dropWhile Char.isDigit)
  if whole ++ fraction = [] then
    none
  else
    let exponent ← readExponent? rest
    some ⟨digitsValue (whole ++ fraction), exponent - fraction.length⟩

def infinity : Float := 1.0 / 0.0

def notANumber : Float := 0.0 / 0.0

/-- The float nearest to a decimal. A value with its leading digit beyond 10^310 overflows, and one
below 10^-330 vanishes, so the scaling works on numbers of moderate size only. -/
def toFloat (d : Decimal) : Float :=
  let magnitude : Int := (Nat.toDigits 10 d.digits).length + d.exponent
  if d.digits = 0 then 0.0
  else if 310 < magnitude then infinity
  else if magnitude < -330 then 0.0
  else Float.ofScientific d.digits (decide (d.exponent < 0)) d.exponent.natAbs

/-- Reads the unsigned part of a float. -/
def readMagnitude? (cs : List Char) : Option Float :=
  let lower := String.ofList (cs.map Char.toLower)
  if lower = "inf" ∨ lower = "infinity" then some infinity
  else if lower = "nan" then some notANumber
  else (ofChars? cs).map toFloat

/-- Reads a float; none if the text is not a numeral. -/
def readFloat? (text : String) : Option Float :=
  let (negative, magnitude) := splitSign text.toList
  (readMagnitude? magnitude).map fun x ↦ if negative then -x else x

example : ofChars? "12.50e-3".toList = some ⟨1250, -5⟩ := by decide +kernel

example : ofChars? "1.2.3".toList = none := by decide +kernel

end Decimal

end ClosedForm
