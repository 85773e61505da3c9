import ClosedForm.Report
import ClosedForm.Text.Lines

/-!
# The command line

The command solves the equations among its arguments, or, if there are none, those on its standard
input, one a line. Every equation is answered on its own: one that cannot be read is reported and
fails the run, and the others are answered all the same.
-/

namespace ClosedForm.CommandLine

structure Options where
  /-- Answer in JSON instead of text. -/
  json : Bool
  /-- Complain about variables that cannot be isolated. -/
  check : Bool
  deriving DecidableEq

def Options.default : Options :=
  ⟨false, false⟩

/-! ## What is asked for -/

inductive Request where
  | misuse
  | help
  | version
  | solve (options : Options) (equations : List String)
  deriving DecidableEq

namespace Request

/-- Puts one more equation in front. -/
def withEquation (text : String) : Request → Request
  | misuse => misuse
  | help => help
  | version => version
  | solve options equations => solve options (text :: equations)

/-- Takes in the arguments from left to right. Each flag may be given once. What begins with a
dash is meant as an option, except a lone dash and whatever follows a double dash. Help and version
are answered as soon as they are met, and one letter behind a dash is enough for that. -/
def ofArgumentsWith (options : Options) : List String → Request
  | [] => solve options []
  | argument :: rest =>
    if argument = "--" then
      solve options rest
    else if argument = "--help" ∨ ['-', 'h'] <+: argument.toList then
      help
    else if argument = "--version" ∨ ['-', 'V'] <+: argument.toList then
      version
    else if argument = "--json" then
      if options.json then misuse else ofArgumentsWith { options with json := true } rest
    else if argument = "--check" then
      if options.check then misuse else ofArgumentsWith { options with check := true } rest
    else if argument.toList.head? = some '-' ∧ argument ≠ "-" then
      misuse
    else
      (ofArgumentsWith options rest).withEquation argument

def ofArguments (arguments : List String) : Request :=
  ofArgumentsWith .default arguments

/-- Without equations among the arguments the standard input is read. -/
def readsInput : Request → Bool
  | solve _ equations => equations.isEmpty
  | misuse | help | version => false

end Request

/-! ## What comes of it -/

/-- What a run writes and the exit code it ends with. -/
structure Outcome where
  stdout : String
  stderr : String
  code : Nat
  deriving DecidableEq

namespace Outcome

def silent : Outcome :=
  ⟨"", "", 0⟩

/-- One run after the other; the worse exit code stands. -/
protected def append (first second : Outcome) : Outcome :=
  ⟨first.stdout ++ second.stdout, first.stderr ++ second.stderr, max first.code second.code⟩

instance : Append Outcome := ⟨Outcome.append⟩

@[simp] theorem silent_append (outcome : Outcome) : silent ++ outcome = outcome := by
  change Outcome.append silent outcome = outcome
  simp [Outcome.append, silent]

@[simp] theorem append_silent (outcome : Outcome) : outcome ++ silent = outcome := by
  change Outcome.append outcome silent = outcome
  simp [Outcome.append, silent]

theorem append_assoc (a b c : Outcome) : a ++ b ++ c = a ++ (b ++ c) := by
  change Outcome.append (Outcome.append a b) c = Outcome.append a (Outcome.append b c)
  simp [Outcome.append, String.append_assoc, Nat.max_assoc]

end Outcome

/-- Each line followed by a line end. -/
def unlines (lines : List String) : String :=
  String.join (lines.map (· ++ "\n"))

def Options.present (options : Options) (report : Report) : Outcome where
  stdout := unlines (if options.json then [report.json] else report.lines)
  stderr := unlines (if options.check then report.complaints else [])
  code := 0

/-- Answers one line, of which white space at the ends is no part. A blank line needs no
answer. -/
def Options.answer (options : Options) (line : String) : Outcome :=
  let text := Text.trim line
  if text.isEmpty then
    .silent
  else
    match Report.ofText text with
    | .ok report => options.present report
    | .error error => ⟨"", unlines [error.message], 1⟩

def Options.answerAll (options : Options) (lines : List String) : Outcome :=
  lines.foldl (fun outcome line ↦ outcome ++ options.answer line) .silent

theorem Options.foldl_answer (options : Options) (lines : List String) (start : Outcome) :
    lines.foldl (fun outcome line ↦ outcome ++ options.answer line) start =
      start ++ options.answerAll lines := by
  induction lines generalizing start with
  | nil => simp [answerAll]
  | cons line more ih =>
    rw [answerAll, List.foldl_cons, List.foldl_cons, ih, ih (.silent ++ options.answer line)]
    rw [Outcome.silent_append, Outcome.append_assoc]

/-- The lines are answered one by one. -/
@[simp] theorem Options.answerAll_cons (options : Options) (line : String) (more : List String) :
    options.answerAll (line :: more) = options.answer line ++ options.answerAll more := by
  rw [answerAll, List.foldl_cons, foldl_answer, Outcome.silent_append]

def usage : String :=
  "Usage: relations [OPTIONS] [EQUATIONS]..."

def helpLines : List String :=
  ["Derive closed-form relations from algebraic equations by isolating each variable.",
    "",
    usage,
    "",
    "Arguments:",
    "  [EQUATIONS]...  The equations to solve (read one per line from stdin when omitted)",
    "",
    "Options:",
    "      --json     Print the relations as JSON",
    "      --check    Report the variables which couldn't be isolated",
    "  -h, --help     Print help",
    "  -V, --version  Print version"]

/-- The outcome for input that is no text. -/
def undecodable : Outcome :=
  let reason := "kind: InvalidData, message: \"stream did not contain valid UTF-8\""
  ⟨"", unlines ["Error: Error \x7b " ++ reason ++ " \x7d"], 1⟩

/-- Answers the lines of the standard input; nothing is answered if any of it is no text. -/
def Options.answerInput (options : Options) (input : ByteArray) : Outcome :=
  match String.fromUTF8? input with
  | some text => options.answerAll ((Text.lines text.toList).map String.ofList)
  | none => undecodable

def Request.run (input : ByteArray) : Request → Outcome
  | misuse => ⟨"", unlines [usage, "", "For more information, try '--help'."], 2⟩
  | help => ⟨unlines helpLines, "", 0⟩
  | version => ⟨unlines ["relations 0.1.0"], "", 0⟩
  | solve options [] => options.answerInput input
  | solve options (first :: more) => options.answerAll (first :: more)

/-- The input makes no difference to a request that does not read it. -/
theorem Request.run_eq_of_readsInput {request : Request} (h : request.readsInput = false)
    (input : ByteArray) : request.run input = request.run .empty := by
  cases request with
  | misuse | help | version => rfl
  | solve options equations =>
    cases equations with
    | nil => cases h
    | cons first more => rfl

/-- A whole run: the arguments and the bytes on the standard input. -/
def run (arguments : List String) (input : ByteArray) : Outcome :=
  (Request.ofArguments arguments).run input

end ClosedForm.CommandLine
