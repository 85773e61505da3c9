import ClosedForm.Text.Cursor

/-!
# Cutting a text at byte offsets

A text may be cut at the boundaries between its characters and nowhere else. Two boundaries in their
order have a part of the text between them, and the bytes of that part are the bytes of the text
from one offset to the other (`slice?_eq_some_iff`, `toUTF8_of_slice?`).
-/

namespace ClosedForm.Text

theorem utf8ByteSize_ofList (cs : List Char) : (String.ofList cs).utf8ByteSize = byteSize cs := by
  induction cs with
  | nil => rfl
  | cons c cs ih =>
    rw [String.ofList_cons, String.utf8ByteSize_append, String.utf8ByteSize_singleton, ih,
      byteSize_cons]

/-! ## Boundaries -/

/-- The offset of a place between two characters of the text, or at one of its ends. -/
def IsBoundary (text : String) (offset : Nat) : Prop :=
  (String.Pos.Raw.mk offset).IsValid text

instance (text : String) (offset : Nat) : Decidable (IsBoundary text offset) :=
  inferInstanceAs (Decidable ((String.Pos.Raw.mk offset).IsValid text))

section

variable {text before after part : String} {offset first last : Nat}

theorem isBoundary_iff :
    IsBoundary text offset ↔
      ∃ before after, text = before ++ after ∧ offset = before.utf8ByteSize := by
  rw [IsBoundary, String.Pos.Raw.isValid_iff_exists_append]
  simp only [String.Pos.Raw.ext_iff, String.byteIdx_rawEndPos]

theorem isBoundary_append (before after : String) :
    IsBoundary (before ++ after) before.utf8ByteSize :=
  isBoundary_iff.mpr ⟨before, after, rfl, rfl⟩

/-- An offset splits a text in one way only. -/
theorem append_inj_of_utf8ByteSize {other behind : String} (h : before ++ after = other ++ behind)
    (hsize : before.utf8ByteSize = other.utf8ByteSize) : before = other ∧ after = behind := by
  have hbytes := congrArg String.toByteArray h
  rw [String.toByteArray_append, String.toByteArray_append] at hbytes
  constructor
  · exact String.toByteArray_inj.mp (ByteArray.append_inj_left hbytes hsize)
  · obtain rfl := String.toByteArray_inj.mp (ByteArray.append_inj_left hbytes hsize)
    simpa using h

/-- Of two ways to split a text, the one further on has more in front. -/
theorem exists_append_of_le {whole behind : String} (h : before ++ behind = whole ++ after)
    (hle : before.utf8ByteSize ≤ whole.utf8ByteSize) :
    ∃ part, whole = before ++ part ∧ behind = part ++ after := by
  have hlists : before.toList ++ behind.toList = whole.toList ++ after.toList := by
    rw [← String.toList_append, h, String.toList_append]
  have htext (cs : List Char) : cs = (String.ofList cs).toList := String.toList_ofList.symm
  rcases List.append_eq_append_iff.mp hlists with ⟨cs, hwhole, hbehind⟩ | ⟨cs, hbefore, hafter⟩
  · rw [htext cs, ← String.toList_append, String.toList_inj] at hwhole hbehind
    exact ⟨String.ofList cs, hwhole, hbehind⟩
  · rw [htext cs, ← String.toList_append, String.toList_inj] at hbefore hafter
    have hsize : (String.ofList cs).utf8ByteSize = 0 := by
      rw [hbefore, String.utf8ByteSize_append] at hle
      omega
    rw [String.utf8ByteSize_eq_zero_iff] at hsize
    rw [hsize, String.append_empty] at hbefore
    rw [hsize, String.empty_append] at hafter
    exact ⟨"", by simp [hbefore], by simp [hafter]⟩

/-! ## Parts of a text -/

/-- The part of a text between two offsets. A text cannot be cut except at two boundaries in their
order. -/
def slice? (text : String) (first last : Nat) : Option String :=
  if first ≤ last ∧ IsBoundary text first ∧ IsBoundary text last then
    String.fromUTF8? (text.toUTF8.extract first last)
  else
    none

theorem fromUTF8?_toUTF8 (text : String) : String.fromUTF8? text.toUTF8 = some text := by
  rw [String.toUTF8_eq_toByteArray, String.fromUTF8?, dif_pos text.isValidUTF8]
  rfl

theorem toUTF8_extract (before part after : String) :
    (before ++ part ++ after).toUTF8.extract before.utf8ByteSize (before ++ part).utf8ByteSize =
      part.toUTF8 := by
  simp only [String.toUTF8_eq_toByteArray]
  calc
    (before ++ part ++ after).toByteArray.extract before.utf8ByteSize
          (before ++ part).utf8ByteSize =
        (before ++ part).toByteArray.extract before.utf8ByteSize (before ++ part).utf8ByteSize := by
      rw [String.toByteArray_append]
      exact ByteArray.extract_append_size_left
    _ = part.toByteArray := by
      rw [String.toByteArray_append]
      exact ByteArray.extract_append_eq_right rfl String.utf8ByteSize_append

theorem slice?_append (before part after : String) :
    slice? (before ++ part ++ after) before.utf8ByteSize (before ++ part).utf8ByteSize =
      some part := by
  have hle : before.utf8ByteSize ≤ (before ++ part).utf8ByteSize := by simp
  have hfirst : IsBoundary (before ++ part ++ after) before.utf8ByteSize := by
    rw [String.append_assoc]
    exact isBoundary_append before _
  rw [slice?, if_pos ⟨hle, hfirst, isBoundary_append _ after⟩, toUTF8_extract, fromUTF8?_toUTF8]

theorem exists_parts (hle : first ≤ last) (hfirst : IsBoundary text first)
    (hlast : IsBoundary text last) :
    ∃ before part after, text = before ++ part ++ after ∧ first = before.utf8ByteSize ∧
      last = (before ++ part).utf8ByteSize := by
  obtain ⟨before, behind, rfl, rfl⟩ := isBoundary_iff.mp hfirst
  obtain ⟨whole, after, hwhole, rfl⟩ := isBoundary_iff.mp hlast
  obtain ⟨part, rfl, rfl⟩ := exists_append_of_le hwhole hle
  exact ⟨before, part, after, hwhole, rfl, rfl⟩

theorem slice?_eq_none_iff :
    slice? text first last = none ↔
      ¬(first ≤ last ∧ IsBoundary text first ∧ IsBoundary text last) := by
  constructor
  · rintro hnone ⟨hle, hfirst, hlast⟩
    obtain ⟨before, part, after, rfl, rfl, rfl⟩ := exists_parts hle hfirst hlast
    rw [slice?_append] at hnone
    cases hnone
  · exact fun hcut ↦ if_neg hcut

theorem slice?_eq_some_iff :
    slice? text first last = some part ↔
      ∃ before after, text = before ++ part ++ after ∧ first = before.utf8ByteSize ∧
        last = (before ++ part).utf8ByteSize := by
  constructor
  · intro h
    obtain ⟨hle, hfirst, hlast⟩ : first ≤ last ∧ IsBoundary text first ∧ IsBoundary text last :=
      Decidable.of_not_not fun hcut ↦ by simp [slice?_eq_none_iff.mpr hcut] at h
    obtain ⟨before, middle, after, rfl, rfl, rfl⟩ := exists_parts hle hfirst hlast
    rw [slice?_append] at h
    obtain rfl := Option.some.inj h
    exact ⟨before, after, rfl, rfl, rfl⟩
  · rintro ⟨before, after, rfl, rfl, rfl⟩
    exact slice?_append before part after

theorem toUTF8_of_slice? (h : slice? text first last = some part) :
    part.toUTF8 = text.toUTF8.extract first last := by
  obtain ⟨before, after, rfl, rfl, rfl⟩ := slice?_eq_some_iff.mp h
  exact (toUTF8_extract before part after).symm

end

end ClosedForm.Text
