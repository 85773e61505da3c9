import ClosedForm.Proofs.Boundaries

/-!
# Cursors and byte offsets

The position of a cursor is a boundary of its text, and looking back from there is a cut of the
text. So a cursor is as good as the text with a byte offset: each operation of `OffsetCursor` does
what the operation of `Cursor` does at its position (`consume?_toOffset`, `skipBlanks?_toOffset`).
-/

namespace ClosedForm.Text

/-! ## Offsets -/

/-- A cursor that keeps its text and a byte offset. To see what is ahead it cuts the text at that
offset, and it has no result where the text cannot be cut. -/
structure OffsetCursor where
  source : String
  offset : Nat

namespace OffsetCursor

def isAtEnd (c : OffsetCursor) : Bool :=
  c.source.utf8ByteSize ≤ c.offset

def rest? (c : OffsetCursor) : Option String :=
  slice? c.source c.offset c.source.utf8ByteSize

def peek? (c : OffsetCursor) : Option Char :=
  c.rest?.map fun rest ↦ rest.toList.head?.getD endOfInput

def consume? (c : OffsetCursor) : Option (Except SyntaxError (Char × OffsetCursor)) :=
  c.rest?.map fun rest ↦
    match rest.toList.head? with
    | some next => .ok (next, ⟨c.source, c.offset + next.utf8Size⟩)
    | none => .error ⟨c.source, .cursorExhausted, c.offset⟩

def consumedSince? (c : OffsetCursor) (earlier : Nat) : Option String :=
  slice? c.source earlier c.offset

theorem offset_lt_of_peek? {c : OffsetCursor} {next : Char} (h : c.peek? = some next)
    (hblank : isBlank next = true) : c.offset < c.source.utf8ByteSize := by
  obtain ⟨rest, hrest, hnext⟩ := Option.map_eq_some_iff.mp h
  obtain ⟨before, after, -, hoffset, hsize⟩ := slice?_eq_some_iff.mp hrest
  have hne : rest ≠ "" := by
    rintro rfl
    have hend : next = endOfInput := hnext.symm
    rw [hend] at hblank
    cases hblank
  have hpos : 0 < rest.utf8ByteSize := by
    rw [Nat.pos_iff_ne_zero, ne_eq, String.utf8ByteSize_eq_zero_iff]
    exact hne
  rw [String.utf8ByteSize_append] at hsize
  omega

/-- Goes on by one byte as long as a blank is next. -/
def skipBlanks? (c : OffsetCursor) : Option OffsetCursor :=
  match h : c.peek? with
  | none => none
  | some next =>
    if hblank : isBlank next = true then
      skipBlanks? ⟨c.source, c.offset + 1⟩
    else
      some c
termination_by c.source.utf8ByteSize - c.offset
decreasing_by
  have hlt := offset_lt_of_peek? h hblank
  omega

theorem skipBlanks?_of_isBlank {c : OffsetCursor} {next : Char} (h : c.peek? = some next)
    (hblank : isBlank next = true) :
    c.skipBlanks? = skipBlanks? ⟨c.source, c.offset + 1⟩ := by
  rw [skipBlanks?]
  split
  · next hnone => simp [h] at hnone
  · next other hother =>
    obtain rfl : next = other := by simpa [h] using hother
    rw [dif_pos hblank]

theorem skipBlanks?_of_not_isBlank {c : OffsetCursor} {next : Char} (h : c.peek? = some next)
    (hblank : isBlank next = false) : c.skipBlanks? = some c := by
  rw [skipBlanks?]
  split
  · next hnone => simp [h] at hnone
  · next other hother =>
    obtain rfl : next = other := by simpa [h] using hother
    rw [dif_neg (by simp [hblank])]

end OffsetCursor

namespace Cursor

variable {c next : Cursor} {earlier : Nat} {part : String}

/-- The text behind the cursor. -/
def passed (c : Cursor) : String :=
  String.ofList c.behind.reverse

theorem text_eq (c : Cursor) : c.text = c.passed ++ c.rest :=
  String.ofList_append

theorem position_eq (c : Cursor) : c.position = c.passed.utf8ByteSize := by
  rw [passed, utf8ByteSize_ofList, byteSize_reverse, position]

theorem isBoundary_position (c : Cursor) : IsBoundary c.text c.position := by
  rw [text_eq, position_eq]
  exact isBoundary_append c.passed c.rest

theorem consumedSince?_eq_some_iff :
    c.consumedSince? earlier = some part ↔
      ∃ before, c.passed = before ++ part ∧ earlier = before.utf8ByteSize := by
  rw [consumedSince?, Option.map_eq_some_iff]
  constructor
  · rintro ⟨⟨before, after⟩, hsplit, rfl⟩
    obtain ⟨hbehind, hsize⟩ := append_of_splitAtByte? hsplit
    refine ⟨String.ofList before, ?_, ?_⟩
    · rw [passed, ← hbehind, String.ofList_append]
    · rw [utf8ByteSize_ofList, hsize]
  · rintro ⟨before, hpassed, rfl⟩
    have hbehind : c.behind.reverse = before.toList ++ part.toList := by
      rw [← String.toList_append, ← hpassed, passed, String.toList_ofList]
    have hsize : before.utf8ByteSize = byteSize before.toList := by
      rw [← utf8ByteSize_ofList, String.ofList_toList]
    refine ⟨(before.toList, part.toList), ?_, String.ofList_toList⟩
    rw [hbehind, hsize]
    exact splitAtByte?_byteSize before.toList part.toList

/-- Looking back cuts the text at the earlier offset and at the position. -/
theorem consumedSince?_eq_slice? (c : Cursor) (earlier : Nat) :
    c.consumedSince? earlier = slice? c.text earlier c.position := by
  ext part
  rw [consumedSince?_eq_some_iff, slice?_eq_some_iff, text_eq, position_eq]
  constructor
  · rintro ⟨before, hpassed, hearlier⟩
    exact ⟨before, c.rest, by rw [hpassed], hearlier, by rw [hpassed]⟩
  · rintro ⟨before, after, htext, hearlier, hsize⟩
    exact ⟨before, (append_inj_of_utf8ByteSize htext hsize).1, hearlier⟩

theorem consumedSince?_eq_none (h : ¬(earlier ≤ c.position ∧ IsBoundary c.text earlier)) :
    c.consumedSince? earlier = none := by
  rw [consumedSince?_eq_slice?, slice?_eq_none_iff]
  exact fun hcut ↦ h ⟨hcut.1, hcut.2.1⟩

theorem exists_consumedSince? (h : earlier ≤ c.position ∧ IsBoundary c.text earlier) :
    ∃ part, c.consumedSince? earlier = some part ∧
      part.toUTF8 = c.text.toUTF8.extract earlier c.position := by
  rw [consumedSince?_eq_slice?]
  have hcut : slice? c.text earlier c.position ≠ none := by
    rw [ne_eq, slice?_eq_none_iff, Decidable.not_not]
    exact ⟨h.1, h.2, c.isBoundary_position⟩
  obtain ⟨part, hpart⟩ := Option.ne_none_iff_exists'.mp hcut
  exact ⟨part, hpart, toUTF8_of_slice? hpart⟩

theorem isAtEnd_iff (c : Cursor) : c.isAtEnd = true ↔ c.position = c.text.utf8ByteSize := by
  have hrest : c.isAtEnd = true ↔ c.rest = "" := by
    rw [isAtEnd, List.isEmpty_iff, rest, ← String.toList_inj, String.toList_ofList,
      String.toList_empty]
  rw [hrest, ← String.utf8ByteSize_eq_zero_iff, text_eq, String.utf8ByteSize_append, position_eq]
  omega

theorem position_le (c : Cursor) : c.position ≤ c.text.utf8ByteSize := by
  rw [text_eq, String.utf8ByteSize_append, position_eq]
  omega

/-- The cursor goes on past a part of the text. -/
structure Passes (c : Cursor) (part : String) (next : Cursor) : Prop where
  text : next.text = c.text
  rest : c.rest = part ++ next.rest
  position : next.position = c.position + part.utf8ByteSize

theorem passes_ofList (behind cs ahead : List Char) :
    Passes ⟨behind, cs ++ ahead⟩ (String.ofList cs) ⟨cs.reverse ++ behind, ahead⟩ := by
  constructor
  · simp [Cursor.text]
  · exact String.ofList_append
  · rw [position, position, byteSize_append, byteSize_reverse, utf8ByteSize_ofList, Nat.add_comm]

theorem exists_consume (h : c.isAtEnd = false) :
    ∃ next, c.consume = .ok (c.peek, next) ∧ c.Passes (String.singleton c.peek) next := by
  obtain ⟨behind, _ | ⟨d, ahead⟩⟩ := c
  · cases h
  · refine ⟨⟨d :: behind, ahead⟩, rfl, ?_⟩
    rw [String.singleton_eq_ofList]
    exact passes_ofList behind [d] ahead

theorem consume_of_isAtEnd (h : c.isAtEnd = true) :
    c.peek = endOfInput ∧
      c.consume = .error ⟨c.text, .cursorExhausted, c.text.utf8ByteSize⟩ := by
  have hposition := (isAtEnd_iff c).mp h
  have hahead : c.ahead = [] := List.isEmpty_iff.mp h
  constructor
  · rw [peek, peek?, hahead]
    rfl
  · rw [consume, hahead, ← hposition]

theorem isBlank_iff {d : Char} : isBlank d = true ↔ d = ' ' ∨ d = '\t' := by
  rw [isBlank, Bool.or_eq_true, beq_iff_eq, beq_iff_eq]

/-- Skipping goes on past all the blanks that are next. -/
theorem exists_skipBlanks (c : Cursor) :
    ∃ blanks, c.Passes blanks c.skipBlanks ∧ (∀ d ∈ blanks.toList, d = ' ' ∨ d = '\t') ∧
      ∀ d ∈ c.skipBlanks.rest.toList.head?, ¬(d = ' ' ∨ d = '\t') := by
  simp only [← isBlank_iff]
  refine ⟨String.ofList (c.ahead.takeWhile isBlank), ?_, ?_, ?_⟩
  · have hpasses := passes_ofList c.behind (c.ahead.takeWhile isBlank) (c.ahead.dropWhile isBlank)
    rwa [List.takeWhile_append_dropWhile] at hpasses
  · rw [String.toList_ofList]
    exact List.all_eq_true.mp List.all_takeWhile
  · intro d hd
    have hfirst := List.head?_dropWhile_not isBlank c.ahead
    rw [rest, String.toList_ofList, skipBlanks, Option.mem_def] at hd
    simpa [hd] using hfirst

/-! ## Cursors and offsets -/

theorem utf8Size_of_isBlank {d : Char} (h : isBlank d = true) : d.utf8Size = 1 := by
  rcases isBlank_iff.mp h with rfl | rfl <;> rfl

/-- The cursor as a text and an offset. -/
def toOffset (c : Cursor) : OffsetCursor :=
  ⟨c.text, c.position⟩

@[simp] theorem isAtEnd_toOffset (c : Cursor) : c.toOffset.isAtEnd = c.isAtEnd := by
  have hle := c.position_le
  rw [Bool.eq_iff_iff, isAtEnd_iff, OffsetCursor.isAtEnd, decide_eq_true_eq]
  exact ⟨Nat.le_antisymm hle, Nat.le_of_eq ∘ Eq.symm⟩

@[simp] theorem rest?_toOffset (c : Cursor) : c.toOffset.rest? = some c.rest := by
  rw [OffsetCursor.rest?, slice?_eq_some_iff]
  refine ⟨c.passed, "", ?_, c.position_eq, ?_⟩
  · rw [String.append_empty]
    exact c.text_eq
  · rw [← text_eq]
    rfl

@[simp] theorem peek?_toOffset (c : Cursor) : c.toOffset.peek? = some c.peek := by
  rw [OffsetCursor.peek?, rest?_toOffset, Option.map_some, rest, String.toList_ofList]
  rfl

@[simp] theorem consumedSince?_toOffset (c : Cursor) (earlier : Nat) :
    c.toOffset.consumedSince? earlier = c.consumedSince? earlier :=
  (consumedSince?_eq_slice? c earlier).symm

theorem toOffset_cons (behind ahead : List Char) (d : Char) :
    toOffset ⟨d :: behind, ahead⟩ =
      ⟨text ⟨behind, d :: ahead⟩, position ⟨behind, d :: ahead⟩ + d.utf8Size⟩ := by
  have hpasses : Passes ⟨behind, d :: ahead⟩ (String.ofList [d]) ⟨d :: behind, ahead⟩ :=
    passes_ofList behind [d] ahead
  have hsize : (String.ofList [d]).utf8ByteSize = d.utf8Size := by
    rw [← String.singleton_eq_ofList, String.utf8ByteSize_singleton]
  rw [toOffset, hpasses.text, hpasses.position, hsize]

@[simp] theorem consume?_toOffset (c : Cursor) :
    c.toOffset.consume? =
      some (c.consume.map fun passed ↦ (passed.1, passed.2.toOffset)) := by
  rw [OffsetCursor.consume?, rest?_toOffset, Option.map_some, rest, String.toList_ofList]
  obtain ⟨behind, _ | ⟨d, ahead⟩⟩ := c
  · rfl
  · rw [consume, Except.map, toOffset_cons]
    rfl

@[simp] theorem skipBlanks?_toOffset (c : Cursor) :
    c.toOffset.skipBlanks? = some c.skipBlanks.toOffset := by
  obtain ⟨behind, ahead⟩ := c
  induction ahead generalizing behind with
  | nil => exact OffsetCursor.skipBlanks?_of_not_isBlank (peek?_toOffset _) rfl
  | cons d ahead ih =>
    have hpeek := peek?_toOffset ⟨behind, d :: ahead⟩
    cases hblank : isBlank d with
    | true =>
      calc
        (toOffset ⟨behind, d :: ahead⟩).skipBlanks? =
            (toOffset ⟨d :: behind, ahead⟩).skipBlanks? := by
          rw [OffsetCursor.skipBlanks?_of_isBlank hpeek hblank, toOffset_cons,
            utf8Size_of_isBlank hblank]
          rfl
        _ = some (skipBlanks ⟨d :: behind, ahead⟩).toOffset := ih (d :: behind)
        _ = some (skipBlanks ⟨behind, d :: ahead⟩).toOffset := by
          simp [skipBlanks, hblank]
    | false =>
      have hstays : skipBlanks ⟨behind, d :: ahead⟩ = ⟨behind, d :: ahead⟩ := by
        simp [skipBlanks, hblank]
      rw [OffsetCursor.skipBlanks?_of_not_isBlank hpeek hblank, hstays]

end Cursor

end ClosedForm.Text
