/-!
# Byte offsets

Positions in a text count the bytes of its UTF-8 form, so a position is either a boundary between
two characters or lies inside one. `splitAtByte?` cuts at the boundaries and nowhere else.
-/

namespace ClosedForm.Text

/-- The number of bytes of the UTF-8 form. -/
def byteSize : List Char → Nat
  | [] => 0
  | c :: cs => c.utf8Size + byteSize cs

@[simp] theorem byteSize_nil : byteSize [] = 0 := rfl

@[simp] theorem byteSize_cons (c : Char) (cs : List Char) :
    byteSize (c :: cs) = c.utf8Size + byteSize cs := rfl

@[simp] theorem byteSize_append (cs ds : List Char) :
    byteSize (cs ++ ds) = byteSize cs + byteSize ds := by
  induction cs with
  | nil => simp
  | cons c cs ih => simp [ih, Nat.add_assoc]

@[simp] theorem byteSize_reverse (cs : List Char) : byteSize cs.reverse = byteSize cs := by
  induction cs with
  | nil => rfl
  | cons c cs ih => simp [ih, Nat.add_comm]

/-- The characters before and after a byte offset, if the offset is a character boundary. -/
def splitAtByte? : List Char → Nat → Option (List Char × List Char)
  | cs, 0 => some ([], cs)
  | [], _ + 1 => none
  | c :: cs, offset + 1 =>
    if c.utf8Size ≤ offset + 1 then
      (splitAtByte? cs (offset + 1 - c.utf8Size)).map fun parts ↦ (c :: parts.1, parts.2)
    else
      none

theorem splitAtByte?_byteSize (before after : List Char) :
    splitAtByte? (before ++ after) (byteSize before) = some (before, after) := by
  induction before with
  | nil => cases after <;> rfl
  | cons c cs ih =>
    have hpos := c.utf8Size_pos
    obtain ⟨n, hn⟩ : ∃ n, byteSize (c :: cs) = n + 1 :=
      ⟨byteSize (c :: cs) - 1, by simp only [byteSize_cons]; omega⟩
    have hle : c.utf8Size ≤ n + 1 := by simp only [byteSize_cons] at hn; omega
    have hrest : n + 1 - c.utf8Size = byteSize cs := by
      simp only [byteSize_cons] at hn; omega
    simp [hn, splitAtByte?, hle, hrest, ih]

theorem append_of_splitAtByte? {cs before after : List Char} {offset : Nat}
    (h : splitAtByte? cs offset = some (before, after)) :
    before ++ after = cs ∧ byteSize before = offset := by
  induction cs generalizing offset before after with
  | nil => cases offset <;> simp_all [splitAtByte?]
  | cons c cs ih =>
    cases offset with
    | zero => simp_all [splitAtByte?]
    | succ n =>
      simp only [splitAtByte?] at h
      split at h
      · obtain ⟨parts, hparts, heq⟩ := Option.map_eq_some_iff.mp h
        obtain ⟨rfl, rfl⟩ := Prod.mk.inj heq
        obtain ⟨happ, hsize⟩ := ih hparts
        refine ⟨by simp [happ], ?_⟩
        simp only [byteSize_cons]
        omega
      · cases h

end ClosedForm.Text
