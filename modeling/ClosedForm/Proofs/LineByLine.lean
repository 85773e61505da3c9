import ClosedForm.CommandLine
import ClosedForm.Proofs.Boundaries
import ClosedForm.Proofs.Partition

/-!
# One line at a time

However lines are given to the command, as arguments or as a text on its input, it writes what a
run for each of them alone writes, one after the other, and it fails if one of them is refused. The
options decide what is written about an equation and nothing else, and an input that is no text is
answered by an error alone, whatever text it starts with (`run_answers_lines_alone`).
-/

namespace ClosedForm.CommandLine

/-! ## Lines given to a run -/

/-- The arguments that choose the options. -/
def Options.flags (options : Options) : List String :=
  (if options.json then ["--json"] else []) ++ if options.check then ["--check"] else []

theorem ofArguments_flags (options : Options) :
    Request.ofArguments options.flags = .solve options [] := by
  obtain ⟨json, check⟩ := options
  cases json <;> cases check <;> rfl

theorem ofArguments_flags_append (options : Options) (equations : List String) :
    Request.ofArguments (options.flags ++ "--" :: equations) = .solve options equations := by
  obtain ⟨json, check⟩ := options
  cases json <;> cases check <;> rfl

/-- The lines of a text. -/
def linesOf (text : String) : List String :=
  (Text.lines text.toList).map String.ofList

/-- The options and the lines that a run is given: equations among its arguments or, if there are
none, the lines of a text on its input. -/
inductive Given (arguments : List String) (input : ByteArray) (options : Options) :
    List String → Prop where
  | arguments {equations : List String} (hne : equations ≠ [])
      (h : Request.ofArguments arguments = .solve options equations) :
      Given arguments input options equations
  | input {text : String} (htext : input = text.toUTF8)
      (h : Request.ofArguments arguments = .solve options []) :
      Given arguments input options (linesOf text)

theorem Given.run_eq {arguments lines : List String} {input : ByteArray} {options : Options}
    (h : Given arguments input options lines) :
    run arguments input = options.answerAll lines := by
  cases h with
  | arguments hne h =>
    obtain ⟨first, more, rfl⟩ := List.exists_cons_of_ne_nil hne
    rw [run, h, Request.run]
  | @input text htext h =>
    rw [run, h, Request.run, Options.answerInput, htext, Text.fromUTF8?_toUTF8]
    rfl

/-- A run for nothing but one line. -/
def alone (options : Options) (line : String) : Outcome :=
  run (options.flags ++ ["--", line]) .empty

theorem alone_eq (options : Options) (line : String) :
    alone options line = options.answer line := by
  have hgiven : Given (options.flags ++ ["--", line]) .empty options [line] :=
    .arguments (List.cons_ne_nil line []) (ofArguments_flags_append options [line])
  rw [alone, hgiven.run_eq, Options.answerAll_cons]
  exact Outcome.append_silent _

/-! ## What a line alone is answered -/

/-- Something stands in the line that is no equation. -/
def IsRefused (line : String) : Prop :=
  Text.trim line ≠ "" ∧ ∃ error, Equation.parse (Text.trim line) = .error error

/-- One complaint for each variable that is the subject of no relation, in the order in which the
variables appear. -/
def complaintsAbout (text : String) (q : Equation) : List String :=
  (q.vars.filter fun name ↦ ∀ r ∈ q.relations.toList, r.subject ≠ name).map fun name ↦
    "Unable to isolate \"" ++ name ++ "\" in \"" ++ text ++ "\""

/-- The report about an equation and the text it was read from. -/
def reportOn (text : String) (q : Equation) : Report :=
  ⟨text, q.relations, q.unsolvable q.relations⟩

theorem complaints_reportOn (text : String) (q : Equation) :
    (reportOn text q).complaints = complaintsAbout text q := by
  refine congrArg (List.map _) (List.filter_congr fun name _ ↦ ?_)
  have hsubject := @Relations.hasSubject_iff q.relations name
  rw [Bool.eq_iff_iff, Bool.not_eq_true', ← Bool.not_eq_true, hsubject]
  simp

theorem ne_empty_of_parse {text : String} {q : Equation} (h : Equation.parse text = .ok q) :
    text ≠ "" := by
  have hempty : Equation.parse "" = .error ⟨"", .missingOperand, 0⟩ := by decide +kernel
  rintro rfl
  rw [hempty] at h
  cases h

section

variable (options : Options) {line : String}

theorem answer_of_blank (h : Text.trim line = "") : options.answer line = .silent := by
  simp [Options.answer, h]

theorem answer_of_error {error : SyntaxError} (hne : Text.trim line ≠ "")
    (h : Equation.parse (Text.trim line) = .error error) :
    options.answer line = ⟨"", unlines [error.message], 1⟩ := by
  simp [Options.answer, Report.ofText, hne, h, Except.map]

theorem answer_of_ok {q : Equation} (h : Equation.parse (Text.trim line) = .ok q) :
    options.answer line = options.present (reportOn (Text.trim line) q) := by
  simp [Options.answer, Report.ofText, ne_empty_of_parse h, h, Except.map, reportOn]

theorem code_answer_of_isRefused (h : IsRefused line) : (options.answer line).code = 1 := by
  obtain ⟨hne, error, herror⟩ := h
  rw [answer_of_error options hne herror]

theorem code_answer_of_not_isRefused (h : ¬IsRefused line) : (options.answer line).code = 0 := by
  by_cases hblank : Text.trim line = ""
  · rw [answer_of_blank options hblank]
    rfl
  · cases hparse : Equation.parse (Text.trim line) with
    | ok q =>
      rw [answer_of_ok options hparse]
      rfl
    | error error => exact absurd ⟨hblank, error, hparse⟩ h

/-- What is written about a line depends on the options, each for its own stream. -/
theorem answer_congr (other : Options) (line : String) :
    (options.answer line).code = (other.answer line).code ∧
      (options.json = other.json → (options.answer line).stdout = (other.answer line).stdout) ∧
      (options.check = other.check →
        (options.answer line).stderr = (other.answer line).stderr) := by
  by_cases hblank : Text.trim line = ""
  · simp [answer_of_blank, hblank]
  · cases hparse : Equation.parse (Text.trim line) with
    | error error => simp [answer_of_error _ hblank hparse]
    | ok q => simp +contextual [answer_of_ok _ hparse, Options.present]

end

/-! ## Lines one after the other -/

theorem Outcome.stdout_append (first second : Outcome) :
    (first ++ second).stdout = first.stdout ++ second.stdout :=
  rfl

theorem Outcome.stderr_append (first second : Outcome) :
    (first ++ second).stderr = first.stderr ++ second.stderr :=
  rfl

theorem Outcome.code_append (first second : Outcome) :
    (first ++ second).code = max first.code second.code :=
  rfl

section

variable (options : Options) (lines : List String)

theorem answerAll_nil : options.answerAll [] = .silent :=
  rfl

/-- A stream of a run is the streams of the answers, one after the other. -/
theorem answerAll_eq_join {stream : Outcome → String} (hsilent : stream .silent = "")
    (happend : ∀ first second, stream (first ++ second) = stream first ++ stream second) :
    stream (options.answerAll lines) =
      String.join (lines.map fun line ↦ stream (options.answer line)) := by
  induction lines with
  | nil => exact hsilent
  | cons line more ih =>
    rw [Options.answerAll_cons, happend, ih, List.map_cons, String.join_cons]

theorem stdout_answerAll :
    (options.answerAll lines).stdout =
      String.join (lines.map fun line ↦ (options.answer line).stdout) :=
  answerAll_eq_join options lines rfl Outcome.stdout_append

theorem stderr_answerAll :
    (options.answerAll lines).stderr =
      String.join (lines.map fun line ↦ (options.answer line).stderr) :=
  answerAll_eq_join options lines rfl Outcome.stderr_append

/-- One refused line makes the run fail. -/
theorem code_answerAll :
    (options.answerAll lines).code = 1 ∧ (∃ line ∈ lines, IsRefused line) ∨
      (options.answerAll lines).code = 0 ∧ ∀ line ∈ lines, ¬IsRefused line := by
  induction lines with
  | nil => exact .inr ⟨rfl, List.forall_mem_nil _⟩
  | cons line more ih =>
    rw [Options.answerAll_cons, Outcome.code_append, List.exists_mem_cons_iff,
      List.forall_mem_cons]
    by_cases hline : IsRefused line
    · have hcode := code_answer_of_isRefused options hline
      left
      constructor
      · rcases ih with ⟨hmore, -⟩ | ⟨hmore, -⟩ <;> simp [hcode, hmore]
      · exact .inl hline
    · have hcode := code_answer_of_not_isRefused options hline
      rcases ih with ⟨hmore, hsome⟩ | ⟨hmore, hnone⟩
      · exact .inl ⟨by simp [hcode, hmore], .inr hsome⟩
      · exact .inr ⟨by simp [hcode, hmore], hline, hnone⟩

theorem answerAll_congr (other : Options) :
    (options.answerAll lines).code = (other.answerAll lines).code ∧
      (options.json = other.json →
        (options.answerAll lines).stdout = (other.answerAll lines).stdout) ∧
      (options.check = other.check →
        (options.answerAll lines).stderr = (other.answerAll lines).stderr) := by
  have hline := answer_congr options other
  refine ⟨?_, fun hjson ↦ ?_, fun hcheck ↦ ?_⟩
  · induction lines with
    | nil => rw [answerAll_nil, answerAll_nil]
    | cons line more ih =>
      rw [Options.answerAll_cons, Options.answerAll_cons, Outcome.code_append,
        Outcome.code_append, (hline line).1, ih]
  · rw [stdout_answerAll, stdout_answerAll]
    exact congrArg String.join (List.map_congr_left fun line _ ↦ (hline line).2.1 hjson)
  · rw [stderr_answerAll, stderr_answerAll]
    exact congrArg String.join (List.map_congr_left fun line _ ↦ (hline line).2.2 hcheck)

end

/-! ## Accepted lines -/

/-- The text of a line without the white space around it and the equation that it is, if it is
one. -/
def readLine? (line : String) : Option (String × Equation) :=
  (Equation.parse (Text.trim line)).toOption.map fun q ↦ (Text.trim line, q)

/-- The lines that are equations. -/
def accepted (lines : List String) : List (String × Equation) :=
  lines.filterMap readLine?

theorem readLine?_eq_some_iff {line : String} {given : String × Equation} :
    readLine? line = some given ↔
      given.1 = Text.trim line ∧ Equation.parse given.1 = .ok given.2 := by
  obtain ⟨text, q⟩ := given
  unfold readLine?
  cases hparse : Equation.parse (Text.trim line) with
  | ok other =>
    simp only [Except.toOption, Option.map_some, Option.some.injEq, Prod.mk.injEq]
    constructor
    · rintro ⟨rfl, rfl⟩
      exact ⟨rfl, hparse⟩
    · rintro ⟨rfl, hq⟩
      rw [hparse] at hq
      exact ⟨rfl, Except.ok.inj hq⟩
  | error error =>
    simp only [Except.toOption, Option.map_none, reduceCtorEq, false_iff, not_and]
    rintro rfl hq
    rw [hparse] at hq
    cases hq

theorem accepted_cons (line : String) (more : List String) :
    accepted (line :: more) = (readLine? line).toList ++ accepted more := by
  rw [accepted, List.filterMap_cons]
  cases readLine? line <;> rfl

theorem mem_accepted_iff {lines : List String} {given : String × Equation} :
    given ∈ accepted lines ↔
      (∃ line ∈ lines, given.1 = Text.trim line) ∧ Equation.parse given.1 = .ok given.2 := by
  simp only [accepted, List.mem_filterMap, readLine?_eq_some_iff]
  constructor
  · rintro ⟨line, hline, htext, hparse⟩
    exact ⟨⟨line, hline, htext⟩, hparse⟩
  · rintro ⟨⟨line, hline, htext⟩, hparse⟩
    exact ⟨line, hline, htext, hparse⟩

/-- The texts of the accepted lines say which equations they are. -/
theorem accepted_eq_of_map_fst_eq {lines others : List String}
    (h : (accepted lines).map Prod.fst = (accepted others).map Prod.fst) :
    accepted lines = accepted others := by
  let reread (text : String) : Option (String × Equation) :=
    (Equation.parse text).toOption.map fun q ↦ (text, q)
  have hreread (lines : List String) :
      ((accepted lines).map Prod.fst).filterMap reread = accepted lines := by
    calc
      ((accepted lines).map Prod.fst).filterMap reread =
          (accepted lines).filterMap (reread ∘ Prod.fst) := List.filterMap_map
      _ = (accepted lines).filterMap some := by
        apply List.filterMap_congr
        intro given hgiven
        simp [reread, (mem_accepted_iff.mp hgiven).2, Except.toOption]
      _ = accepted lines := List.filterMap_some
  rw [← hreread lines, h, hreread]

/-- The lines that are written about an equation. -/
def Options.outputLines (options : Options) (given : String × Equation) : List String :=
  if options.json then [(reportOn given.1 given.2).json] else (reportOn given.1 given.2).lines

theorem unlines_append (lines more : List String) :
    unlines (lines ++ more) = unlines lines ++ unlines more := by
  rw [unlines, List.map_append, String.join_append]
  rfl

theorem stdout_answer (options : Options) (line : String) :
    (options.answer line).stdout =
      unlines ((readLine? line).toList.flatMap options.outputLines) := by
  unfold readLine?
  cases hparse : Equation.parse (Text.trim line) with
  | ok q =>
    rw [answer_of_ok options hparse]
    simp [Except.toOption, Options.present, Options.outputLines]
  | error error =>
    by_cases hblank : Text.trim line = ""
    · rw [answer_of_blank options hblank]
      rfl
    · rw [answer_of_error options hblank hparse]
      rfl

/-- The output is what is written about the accepted lines. -/
theorem stdout_eq_unlines (options : Options) (lines : List String) :
    (options.answerAll lines).stdout = unlines ((accepted lines).flatMap options.outputLines) := by
  induction lines with
  | nil => rfl
  | cons line more ih =>
    rw [Options.answerAll_cons, Outcome.stdout_append, ih, stdout_answer, ← unlines_append,
      ← List.flatMap_append, accepted_cons]

/-- Lines that hold no line end themselves can be told apart again. -/
theorem lines_unlines {lines : List String} (h : ∀ line ∈ lines, '\n' ∉ line.toList) :
    Text.lines (unlines lines).toList = lines.map String.toList := by
  induction lines with
  | nil => rfl
  | cons line more ih =>
    rw [List.forall_mem_cons] at h
    have hsplit : (unlines (line :: more)).toList =
        line.toList ++ '\n' :: (unlines more).toList := by
      simp [unlines]
    rw [hsplit, Text.lines_append h.1, ih h.2, List.map_cons]

/-! ## Input that is no text -/

/-- A text in front of some bytes does not mend them. -/
theorem isValidUTF8_toUTF8_append_iff (text : String) (bytes : ByteArray) :
    (text.toUTF8 ++ bytes).IsValidUTF8 ↔ bytes.IsValidUTF8 := by
  rw [String.toUTF8_eq_toByteArray, ← String.utf8Encode_toList]
  induction text.toList with
  | nil => simp
  | cons c cs ih =>
    rw [List.utf8Encode_cons, ByteArray.append_assoc,
      ByteArray.isValidUTF8_utf8Encode_singleton_append_iff, ih]

theorem run_of_not_isValidUTF8 {arguments : List String} {input : ByteArray} {options : Options}
    (h : Request.ofArguments arguments = .solve options []) (hinput : ¬input.IsValidUTF8) :
    run arguments input = undecodable := by
  rw [run, h, Request.run, Options.answerInput, String.fromUTF8?, dif_neg hinput]

/-- Every line is answered as if it were the only one, and the exit code tells whether one was
refused. `--check` is about the error stream alone and `--json` about the output stream alone. An
input with a fault in its bytes has no line answered, even if there is text in front. -/
theorem run_answers_lines_alone :
    (∀ {arguments lines : List String} {input : ByteArray} {options : Options},
      Given arguments input options lines →
      let outcome := run arguments input
      outcome.stdout = String.join (lines.map fun line ↦ (alone options line).stdout) ∧
      outcome.stderr = String.join (lines.map fun line ↦ (alone options line).stderr) ∧
      (outcome.code = 1 ∧ (∃ line ∈ lines, IsRefused line) ∨
        outcome.code = 0 ∧ ∀ line ∈ lines, ¬IsRefused line)) ∧
    (∀ options lines input, lines ≠ [] →
      Given (options.flags ++ "--" :: lines) input options lines) ∧
    (∀ (options : Options) (text : String),
      Given options.flags text.toUTF8 options (linesOf text)) ∧
    (∀ options line, Text.trim line = "" → alone options line = .silent) ∧
    (∀ options line error, Text.trim line ≠ "" →
      Equation.parse (Text.trim line) = .error error →
      alone options line = ⟨"", error.message ++ "\n", 1⟩) ∧
    (∀ options line q, Equation.parse (Text.trim line) = .ok q →
      (alone options line).code = 0 ∧
      (alone options line).stderr =
        if options.check then unlines (complaintsAbout (Text.trim line) q) else "") ∧
    (∀ {arguments others lines : List String} {input other : ByteArray} {o o' : Options},
      Given arguments input o lines → Given others other o' lines →
      (run arguments input).code = (run others other).code ∧
      (o.json = o'.json → (run arguments input).stdout = (run others other).stdout) ∧
      (o.check = o'.check → (run arguments input).stderr = (run others other).stderr)) ∧
    ∀ {arguments : List String} {options : Options} (text : String) (bytes : ByteArray),
      Request.ofArguments arguments = .solve options [] → ¬bytes.IsValidUTF8 →
      (run arguments (text.toUTF8 ++ bytes)).stdout = "" ∧
      (run arguments (text.toUTF8 ++ bytes)).code = 1 := by
  refine ⟨fun h ↦ ?_, fun options lines input hne ↦ ?_, fun options text ↦ ?_,
    fun options line hblank ↦ ?_, fun options line error hne herror ↦ ?_,
    fun options line q hq ↦ ?_, fun {_ _ lines _ _ o o'} h h' ↦ ?_, fun text bytes h hbytes ↦ ?_⟩
  · simp only [h.run_eq, alone_eq]
    exact ⟨stdout_answerAll _ _, stderr_answerAll _ _, code_answerAll _ _⟩
  · exact .arguments hne (ofArguments_flags_append options lines)
  · exact .input rfl (ofArguments_flags options)
  · rw [alone_eq, answer_of_blank options hblank]
  · rw [alone_eq, answer_of_error options hne herror]
    simp [unlines]
  · rw [alone_eq, answer_of_ok options hq, Options.present, complaints_reportOn]
    refine ⟨rfl, ?_⟩
    cases options.check <;> rfl
  · rw [h.run_eq, h'.run_eq]
    exact answerAll_congr o lines o'
  · have hinput := (isValidUTF8_toUTF8_append_iff text bytes).not.mpr hbytes
    rw [run_of_not_isValidUTF8 h hinput]
    exact ⟨rfl, rfl⟩

/-- Of `a = b * b`, a blank line and `x = (`, the first has a relation and a variable without one,
and the last is refused. The same lines on the input and answered in JSON are complained about
alike. A line in front of a stray byte is not answered. -/
theorem run_answers_lines_alone_of_three :
    let arguments := ["a = b * b", "--check", " \t", "x = ("]
    let lines := ["a = b * b", " \t", "x = ("]
    let options : Options := ⟨false, true⟩
    let input := "a = b * b\n \t\nx = (\n"
    let outcome := run arguments .empty
    let refusal := SyntaxError.message ⟨"x = (", .missingOperand, 5⟩
    let square := Equation.equality (.var "a") (.mul (.var "b") (.var "b"))
    Given arguments .empty options lines ∧
      Given ["--json", "--check"] input.toUTF8 ⟨true, true⟩ lines ∧
      outcome.stdout = String.join ["a = b * b\n  a = b * b\n", "", ""] ∧
      outcome.stderr =
        String.join ["Unable to isolate \"b\" in \"a = b * b\"\n", "", refusal ++ "\n"] ∧
      outcome.code = 1 ∧
      Equation.parse (Text.trim "a = b * b") = .ok square ∧
      (alone options "a = b * b").stderr =
        unlines (complaintsAbout (Text.trim "a = b * b") square) ∧
      (run ["--json", "--check"] input.toUTF8).stderr = outcome.stderr ∧
      ¬(ByteArray.mk #[0xff]).IsValidUTF8 ∧
      (run [] ("a = b\n".toUTF8 ++ ⟨#[0xff]⟩)).stdout = "" := by
  intro arguments lines options input outcome refusal square
  obtain ⟨heach, -, hinput, hblank, hrefused, haccepted, htwo, hbytes⟩ := run_answers_lines_alone
  have hgiven : Given arguments .empty options lines := .arguments (by simp) (by decide)
  have hlines : linesOf input = lines := by decide +kernel
  have hgiven' : Given ["--json", "--check"] input.toUTF8 ⟨true, true⟩ lines :=
    hlines ▸ hinput ⟨true, true⟩ input
  have hfirst : alone options "a = b * b" =
      ⟨"a = b * b\n  a = b * b\n", "Unable to isolate \"b\" in \"a = b * b\"\n", 0⟩ := by
    decide +kernel
  have hsquare : Equation.parse (Text.trim "a = b * b") = .ok square := by decide +kernel
  have hsecond : alone options " \t" = .silent := hblank options " \t" (by decide +kernel)
  have hparse : Equation.parse (Text.trim "x = (") = .error ⟨"x = (", .missingOperand, 5⟩ := by
    decide +kernel
  have hthird : alone options "x = (" = ⟨"", refusal ++ "\n", 1⟩ :=
    hrefused options "x = (" _ (by decide +kernel) hparse
  obtain ⟨hstdout, hstderr, hcode⟩ := heach hgiven
  simp only [lines, List.map_cons, List.map_nil, hfirst, hsecond, hthird] at hstdout hstderr
  have hcode' : outcome.code = 1 := by
    rcases hcode with ⟨hcode, -⟩ | ⟨-, hnone⟩
    · exact hcode
    · exact absurd ⟨by decide +kernel, _, hparse⟩ (hnone "x = (" (by simp [lines]))
  have hstray : ¬(ByteArray.mk #[0xff]).IsValidUTF8 := by decide +kernel
  exact ⟨hgiven, hgiven', hstdout, hstderr, hcode', hsquare, (haccepted options _ square hsquare).2,
    (htwo hgiven' hgiven).2.2 rfl, hstray, (hbytes "a = b\n" ⟨#[0xff]⟩ rfl hstray).1⟩

end ClosedForm.CommandLine
