import ClosedForm.Proofs.LineByLine

/-!
# Equations on the input

Equations can be given as arguments or written on the input, one a line. A line is cut off at the
line feed, so a carriage return before it is left at the end of the line, where it is white space
and no part of the equation. So both ways lead to the same run, whatever flags come with the
equations and whichever kind of line end stands behind each (`run_arguments_eq_run_input`).
-/

namespace ClosedForm

namespace Text

theorem dropWhile_append_singleton {p : Char → Bool} {c : Char} (h : p c = true) (cs : List Char) :
    (cs ++ [c]).dropWhile p = [] ∧ cs.dropWhile p = [] ∨
      (cs ++ [c]).dropWhile p = cs.dropWhile p ++ [c] := by
  rw [List.dropWhile_append]
  by_cases hempty : cs.dropWhile p = []
  · left
    simp [hempty, h]
  · right
    simp [hempty]

/-- White space at the end of a text is trimmed away. -/
theorem trimmed_append_singleton {c : Char} (h : isWhiteSpace c = true) (cs : List Char) :
    trimmed (cs ++ [c]) = trimmed cs := by
  rcases dropWhile_append_singleton h cs with ⟨hboth, hfront⟩ | hlonger
  · rw [trimmed, trimmed, hboth, hfront]
  · calc
      trimmed (cs ++ [c]) =
          ((cs.dropWhile isWhiteSpace ++ [c]).reverse.dropWhile isWhiteSpace).reverse := by
        rw [trimmed, hlonger]
      _ = trimmed cs := by
        rw [List.reverse_concat, List.dropWhile_cons_of_pos h]
        rfl

end Text

namespace CommandLine

/-! ## Written lines -/

inductive LineEnd where
  | lineFeed
  | carriageReturnLineFeed
  deriving DecidableEq

namespace LineEnd

def text : LineEnd → String
  | lineFeed => "\n"
  | carriageReturnLineFeed => "\r\n"

/-- What is left of the line end when the line is cut off at the line feed. -/
def remainder : LineEnd → String
  | lineFeed => ""
  | carriageReturnLineFeed => "\r"

theorem text_eq (lineEnd : LineEnd) : lineEnd.text = lineEnd.remainder ++ "\n" := by
  cases lineEnd <;> rfl

theorem lineFeed_notMem_remainder (lineEnd : LineEnd) : '\n' ∉ lineEnd.remainder.toList := by
  cases lineEnd <;> decide

theorem trim_append_remainder (line : String) (lineEnd : LineEnd) :
    Text.trim (line ++ lineEnd.remainder) = Text.trim line := by
  cases lineEnd with
  | lineFeed => rw [remainder, String.append_empty]
  | carriageReturnLineFeed =>
    have hreturn : Text.isWhiteSpace '\r' = true := by decide
    have htoList : (line ++ "\r").toList = line.toList ++ ['\r'] := String.toList_append
    rw [Text.trim, Text.trim, remainder, htoList, Text.trimmed_append_singleton hreturn]

end LineEnd

/-- The texts one after the other, each closed by its line end. -/
def writeLines (lines : List (String × LineEnd)) : String :=
  String.join (lines.map fun line ↦ line.1 ++ line.2.text)

theorem writeLines_eq_unlines (lines : List (String × LineEnd)) :
    writeLines lines = unlines (lines.map fun line ↦ line.1 ++ line.2.remainder) := by
  rw [writeLines, unlines, List.map_map]
  refine congrArg String.join (List.map_congr_left fun line _ ↦ ?_)
  rw [LineEnd.text_eq, ← String.append_assoc]
  rfl

theorem linesOf_unlines {lines : List String} (h : ∀ line ∈ lines, '\n' ∉ line.toList) :
    linesOf (unlines lines) = lines := by
  rw [linesOf, lines_unlines h]
  simp [Function.comp_def]

/-- Reading written lines gives back each text with what is left of its line end. -/
theorem linesOf_writeLines {lines : List (String × LineEnd)}
    (h : ∀ line ∈ lines, '\n' ∉ line.1.toList) :
    linesOf (writeLines lines) = lines.map fun line ↦ line.1 ++ line.2.remainder := by
  rw [writeLines_eq_unlines]
  apply linesOf_unlines
  intro read hread
  obtain ⟨line, hline, rfl⟩ := List.mem_map.mp hread
  rw [String.toList_append, List.mem_append, not_or]
  exact ⟨h line hline, line.2.lineFeed_notMem_remainder⟩

/-! ## Answers -/

section

variable (options : Options)

/-- White space around a line makes no difference to its answer. -/
theorem answer_eq_of_trim_eq {line other : String} (h : Text.trim line = Text.trim other) :
    options.answer line = options.answer other := by
  simp only [Options.answer, h]

theorem answerAll_map_remainder (lines : List (String × LineEnd)) :
    options.answerAll (lines.map fun line ↦ line.1 ++ line.2.remainder) =
      options.answerAll (lines.map Prod.fst) := by
  induction lines with
  | nil => rfl
  | cons line more ih =>
    have hline := answer_eq_of_trim_eq options (line.2.trim_append_remainder line.1)
    rw [List.map_cons, List.map_cons, Options.answerAll_cons, Options.answerAll_cons, hline, ih]

theorem answerInput_writeLines {lines : List (String × LineEnd)}
    (h : ∀ line ∈ lines, '\n' ∉ line.1.toList) :
    options.answerInput (writeLines lines).toUTF8 = options.answerAll (lines.map Prod.fst) := by
  calc
    options.answerInput (writeLines lines).toUTF8 =
        options.answerAll (linesOf (writeLines lines)) := by
      rw [Options.answerInput, Text.fromUTF8?_toUTF8]
      rfl
    _ = options.answerAll (lines.map Prod.fst) := by
      rw [linesOf_writeLines h, answerAll_map_remainder]

end

/-! ## Flags -/

def IsFlag (argument : String) : Prop :=
  argument = "--json" ∨ argument = "--check"

/-- Flags choose the options, unless one of them is given twice, and equations behind a double dash
make no difference to that. -/
theorem ofArgumentsWith_flags {flags : List String} (h : ∀ flag ∈ flags, IsFlag flag)
    (options : Options) (equations : List String) :
    (Request.ofArgumentsWith options flags = .misuse ∧
        Request.ofArgumentsWith options (flags ++ "--" :: equations) = .misuse) ∨
      ∃ chosen, Request.ofArgumentsWith options flags = .solve chosen [] ∧
        Request.ofArgumentsWith options (flags ++ "--" :: equations) = .solve chosen equations := by
  induction flags generalizing options with
  | nil => exact .inr ⟨options, rfl, rfl⟩
  | cons flag flags ih =>
    rw [List.forall_mem_cons] at h
    obtain ⟨rfl | rfl, hflags⟩ := h
    · by_cases hjson : options.json = true
      · left
        simp [Request.ofArgumentsWith, hjson]
      · simpa [Request.ofArgumentsWith, hjson] using ih hflags { options with json := true }
    · by_cases hcheck : options.check = true
      · left
        simp [Request.ofArgumentsWith, hcheck]
      · simpa [Request.ofArgumentsWith, hcheck] using ih hflags { options with check := true }

/-- A run for equations among the arguments and one for the same equations on the input, each on a
line with either line end, come to the same output, the same complaints and the same exit code. -/
theorem run_arguments_eq_run_input {flags : List String} (hflags : ∀ flag ∈ flags, IsFlag flag)
    {lines : List (String × LineEnd)} (hne : lines ≠ [])
    (hlines : ∀ line ∈ lines, '\n' ∉ line.1.toList) (input : ByteArray) :
    run (flags ++ "--" :: lines.map Prod.fst) input = run flags (writeLines lines).toUTF8 := by
  rcases ofArgumentsWith_flags hflags .default (lines.map Prod.fst) with
    ⟨hread, hgiven⟩ | ⟨options, hread, hgiven⟩
  · rw [run, run, Request.ofArguments, Request.ofArguments, hread, hgiven]
    rfl
  · have harguments : Given (flags ++ "--" :: lines.map Prod.fst) input options
        (lines.map Prod.fst) := .arguments (by simpa using hne) hgiven
    calc
      run (flags ++ "--" :: lines.map Prod.fst) input = options.answerAll (lines.map Prod.fst) :=
        harguments.run_eq
      _ = options.answerInput (writeLines lines).toUTF8 :=
        (answerInput_writeLines options hlines).symm
      _ = run flags (writeLines lines).toUTF8 := by
        rw [run, Request.ofArguments, hread, Request.run]

/-- A line that has a carriage return of its own, an empty one, one that is refused and one with
white space around it are answered alike in both ways. -/
theorem run_arguments_eq_run_input_of_four :
    let flags := ["--check", "--json"]
    let lines : List (String × LineEnd) := [("a = b * b\r", .lineFeed),
      ("", .carriageReturnLineFeed), ("x = (", .carriageReturnLineFeed),
      ("\u00a0c = d\t", .lineFeed)]
    let arguments := flags ++ ["--", "a = b * b\r", "", "x = (", "\u00a0c = d\t"]
    let input := "a = b * b\r\n\r\nx = (\r\n\u00a0c = d\t\n"
    (∀ flag ∈ flags, IsFlag flag) ∧ lines ≠ [] ∧ (∀ line ∈ lines, '\n' ∉ line.1.toList) ∧
      writeLines lines = input ∧ run arguments .empty = run flags input.toUTF8 ∧
      (run flags input.toUTF8).code = 1 := by
  intro flags lines arguments input
  have hflags : ∀ flag ∈ flags, IsFlag flag := by simp [flags, IsFlag]
  have hne : lines ≠ [] := by simp [lines]
  have hlines : ∀ line ∈ lines, '\n' ∉ line.1.toList := by decide +kernel
  have hinput : writeLines lines = input := by decide +kernel
  have hrun : run arguments .empty = run flags input.toUTF8 :=
    hinput ▸ run_arguments_eq_run_input hflags hne hlines .empty
  have hcode : (run arguments .empty).code = 1 := by decide +kernel
  exact ⟨hflags, hne, hlines, hinput, hrun, hrun ▸ hcode⟩

end CommandLine

end ClosedForm
