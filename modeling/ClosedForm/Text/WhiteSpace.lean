import ClosedForm.Text.Ranges

/-!
# Blanks and white space

Two classes of empty characters. Blanks, the space and the tab, may stand anywhere between the
tokens of an equation. White space is the property White_Space of Unicode, line ends included;
it may only surround an equation as a whole.
-/

namespace ClosedForm.Text

def isBlank (c : Char) : Bool :=
  c == ' ' || c == '\t'

/-- The code points with the property White_Space. -/
def whiteSpaceRanges : List (Nat × Nat) :=
  [(0x9, 0xD), (0x20, 0x20), (0x85, 0x85), (0xA0, 0xA0), (0x1680, 0x1680), (0x2000, 0x200A),
   (0x2028, 0x2029), (0x202F, 0x202F), (0x205F, 0x205F), (0x3000, 0x3000)]

def isWhiteSpace (c : Char) : Bool :=
  inRanges whiteSpaceRanges c.toNat

theorem isWhiteSpace_of_isBlank {c : Char} (h : isBlank c = true) : isWhiteSpace c = true := by
  simp only [isBlank, Bool.or_eq_true, beq_iff_eq] at h
  rcases h with rfl | rfl <;> rfl

/-- Drops white space at both ends of a list of characters. -/
def trimmed (cs : List Char) : List Char :=
  ((cs.dropWhile isWhiteSpace).reverse.dropWhile isWhiteSpace).reverse

def trim (text : String) : String :=
  String.ofList (trimmed text.toList)

end ClosedForm.Text
