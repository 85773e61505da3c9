import ClosedForm.Proofs.LineByLine
import ClosedForm.Proofs.ReadingBack

/-!
# The output as a transcript

Without `--json` the output is a header for each equation, which is the line it was read from
without the white space around it, and below it the indented relations. No header starts with white
space and nothing that is written breaks a line, so the output can be read back: a line with two
spaces in front is a relation of the last header (`readTranscript_stdout`).
-/

namespace ClosedForm

open Text (isBlank isWhiteSpace)

/-! ## White space in what is accepted -/

theorem isWhiteSpace_of_isWordChar {c : Char} (h : isWordChar c = true) :
    isWhiteSpace c = false := by
  by_contra hspace
  rw [isWordChar_of_isWhiteSpace (Bool.not_eq_false _ ▸ hspace)] at h
  cases h

theorem Token.isWhiteSpace_of_mem_text {t : Token} (ht : t.IsWellFormed) :
    ∀ c ∈ t.text.toList, isWhiteSpace c = false := by
  cases t with
  | number text => exact fun c hc ↦ isWhiteSpace_of_isWordChar (IsNumeral.isWordChar ht c hc)
  | name text => exact fun c hc ↦ isWhiteSpace_of_isWordChar (ht.1.isWordChar c hc)
  | function f =>
    exact fun c hc ↦ isWhiteSpace_of_isWordChar ((isIdentifier_name f).isWordChar c hc)
  | operator op => cases op <;> simp [text, BinaryOp.symbol] <;> rfl
  | equals | opening | closing => simp [text]; rfl
  | stray c | malformed fault => cases ht

/-- A layout with no white space at its end has blanks for its only white space. -/
theorem Layout.isBlank_of_isWhiteSpace {tokens : List Token} {cs : List Char}
    (h : Layout tokens cs) (hlast : ∀ c ∈ cs.getLast?, isWhiteSpace c = false) :
    ∀ c ∈ cs, isWhiteSpace c = true → isBlank c = true := by
  have hrest (front : List Char) {rest : List Char}
      (hlast : ∀ c ∈ (front ++ rest).getLast?, isWhiteSpace c = false) :
      ∀ c ∈ rest.getLast?, isWhiteSpace c = false := by
    intro c hc
    exact hlast c (List.mem_getLast?_append_of_mem_getLast? hc)
  induction h with
  | @trailing cs h =>
    intro c hc
    have hne : cs ≠ [] := List.ne_nil_of_mem hc
    have hspace := h _ (List.getLast_mem hne)
    rw [hlast _ (List.getLast?_eq_some_getLast hne)] at hspace
    cases hspace
  | @blank b tokens cs hb h ih =>
    rw [List.forall_mem_cons]
    exact ⟨fun _ ↦ hb, ih (hrest [b] hlast)⟩
  | token ht hend h ih =>
    rw [List.forall_mem_append]
    refine ⟨fun c hc hspace ↦ ?_, ih (hrest _ hlast)⟩
    rw [Token.isWhiteSpace_of_mem_text ht c hc] at hspace
    cases hspace

theorem isWhiteSpace_of_mem_head?_trimmed (cs : List Char) :
    ∀ c ∈ (Text.trimmed cs).head?, isWhiteSpace c = false := by
  obtain ⟨rest, hrest⟩ : Text.trimmed cs <+: cs.dropWhile isWhiteSpace :=
    List.rdropWhile_prefix isWhiteSpace _
  intro c hc
  apply head_dropWhile isWhiteSpace cs
  rw [← hrest]
  exact List.mem_head?_append_of_mem_head? hc

theorem isWhiteSpace_of_mem_getLast?_trimmed (cs : List Char) :
    ∀ c ∈ (Text.trimmed cs).getLast?, isWhiteSpace c = false := by
  rw [Text.trimmed, List.getLast?_reverse]
  exact head_dropWhile isWhiteSpace _

/-- The white space in an equation that was read from a trimmed text is blanks. -/
theorem Equation.isBlank_of_parse_trim {line : String} {q : Equation}
    (h : Equation.parse (Text.trim line) = .ok q) :
    ∀ c ∈ (Text.trim line).toList, isWhiteSpace c = true → isBlank c = true := by
  obtain ⟨tokens, hlayout, -⟩ := exists_layout_of_parse h
  apply hlayout.isBlank_of_isWhiteSpace
  rw [Text.trim, String.toList_ofList]
  exact isWhiteSpace_of_mem_getLast?_trimmed line.toList

/-! ## White space in what is rendered -/

/-- No white space but spaces. -/
def IsSpacedOnly (cs : List Char) : Prop :=
  ∀ c ∈ cs, isWhiteSpace c = true → c = ' '

instance (cs : List Char) : Decidable (IsSpacedOnly cs) :=
  List.decidableBAll (fun c ↦ isWhiteSpace c = true → c = ' ') cs

theorem isSpacedOnly_append {cs ds : List Char} :
    IsSpacedOnly (cs ++ ds) ↔ IsSpacedOnly cs ∧ IsSpacedOnly ds :=
  List.forall_mem_append

theorem isSpacedOnly_of_isWordChar {cs : List Char} (h : ∀ c ∈ cs, isWordChar c = true) :
    IsSpacedOnly cs := by
  intro c hc hspace
  rw [isWhiteSpace_of_isWordChar (h c hc)] at hspace
  cases hspace

theorem IsSpacedOnly.notMem {cs : List Char} (h : IsSpacedOnly cs) {c : Char}
    (hspace : isWhiteSpace c = true) (hne : c ≠ ' ') : c ∉ cs :=
  fun hc ↦ hne (h c hc hspace)

namespace Expr

theorem isSpacedOnly_enclose {operand : Expr} (h : IsSpacedOnly operand.render.toList) :
    IsSpacedOnly (operand.enclose operand.render).toList := by
  unfold enclose
  split
  · simp only [String.toList_append, isSpacedOnly_append]
    exact ⟨⟨by decide, h⟩, by decide⟩
  · exact h

theorem isSpacedOnly_separator (op : BinaryOp) : IsSpacedOnly (separator op).toList := by
  cases op <;> decide

/-- The text of a tree holds no white space but the spaces around operators. -/
theorem isSpacedOnly_render {e : Expr} (he : e.HasWritableLeaves) :
    IsSpacedOnly e.render.toList := by
  induction e with
  | number text => exact isSpacedOnly_of_isWordChar (IsNumeral.isWordChar he)
  | var name => exact isSpacedOnly_of_isWordChar he.1.isWordChar
  | unary op operand ih =>
    cases op with
    | negate =>
      rw [render, String.toList_append, isSpacedOnly_append]
      exact ⟨by decide, isSpacedOnly_enclose (ih he)⟩
    | call f =>
      have hname := isSpacedOnly_of_isWordChar (Token.isIdentifier_name f).isWordChar
      simp only [render, String.toList_append, isSpacedOnly_append]
      exact ⟨⟨⟨hname, by decide⟩, ih he⟩, by decide⟩
  | binary op left right ihl ihr =>
    simp only [render, String.toList_append, isSpacedOnly_append]
    exact ⟨⟨isSpacedOnly_enclose (ihl he.1), isSpacedOnly_separator op⟩,
      isSpacedOnly_enclose (ihr he.2)⟩

end Expr

namespace Relation

/-- The subject is a name that is free for variables and the formula is the text of a tree. -/
def IsWritten (r : Relation) : Prop :=
  (Expr.var r.subject).HasWritableLeaves ∧
    ∃ formula : Expr, formula.HasWritableLeaves ∧ r.formula = formula.render

theorem IsWritten.isSpacedOnly_render {r : Relation} (h : r.IsWritten) :
    IsSpacedOnly r.render.toList := by
  obtain ⟨hsubject, formula, hformula, hrender⟩ := h
  simp only [render, String.toList_append, isSpacedOnly_append, hrender]
  exact ⟨⟨Expr.isSpacedOnly_render hsubject, by decide⟩, Expr.isSpacedOnly_render hformula⟩

theorem IsWritten.space_notMem {r : Relation} (h : r.IsWritten) : ' ' ∉ r.subject.toList := by
  intro hmem
  have hword := h.1.1.isWordChar ' ' hmem
  revert hword
  decide

end Relation

theorem Equation.isWritten_of_mem_relations {q : Equation} (hq : q.IsWritable) {r : Relation}
    (hr : r ∈ q.relations.toList) : r.IsWritten := by
  obtain ⟨-, formula, hformula, hrender⟩ := q.mem_relations_iff.mp hr
  cases q with
  | expression e =>
    obtain ⟨a, harrange, -⟩ := rearrange_eq_ok_iff.mp hformula
    cases harrange
  | equality left right =>
    have hleft := (hq left (by simp [sides])).hasWritableLeaves
    have hright := (hq right (by simp [sides])).hasWritableLeaves
    obtain ⟨hsubject, hleaves⟩ := hasWritableLeaves_of_rearrange hformula hleft hright
    exact ⟨hsubject, formula, hleaves, hrender⟩

/-! ## Reading a transcript -/

namespace CommandLine

/-- Reads `name = formula`. The name goes up to the first space. -/
def readRelation (cs : List Char) : Relation :=
  ⟨String.ofList (cs.takeWhile (· != ' ')), String.ofList ((cs.dropWhile (· != ' ')).drop 3)⟩

/-- The relations in front of the first header, and the headers with the relations below them. -/
def readEntries : List (List Char) → List Relation × List (String × List Relation)
  | [] => ([], [])
  | line :: lines =>
    let below := readEntries lines
    match line with
    | ' ' :: ' ' :: relation => (readRelation relation :: below.1, below.2)
    | header => ([], (String.ofList header, below.1) :: below.2)

/-- The headers in an output, each with the relations below it. -/
def readTranscript (stdout : String) : List (String × List Relation) :=
  (readEntries (Text.lines stdout.toList)).2

def relationLine (r : Relation) : String :=
  "  " ++ r.render

theorem readRelation_render {r : Relation} (h : ' ' ∉ r.subject.toList) :
    readRelation r.render.toList = r := by
  have hname : ∀ c ∈ r.subject.toList, (c != ' ') = true := by
    intro c hc
    rw [bne_iff_ne]
    rintro rfl
    exact h hc
  have hsplit : r.render.toList = r.subject.toList ++ (' ' :: '=' :: ' ' :: r.formula.toList) := by
    simp [Relation.render]
  have hspace : ∀ c ∈ (' ' :: '=' :: ' ' :: r.formula.toList).head?, (c != ' ') = false := by simp
  rw [readRelation, hsplit, takeWhile_of_endsWith hname hspace, dropWhile_of_endsWith hname hspace]
  simp

/-- The relations below a header. -/
theorem readEntries_relations_append {rs : List Relation} (h : ∀ r ∈ rs, ' ' ∉ r.subject.toList)
    (lines : List (List Char)) :
    readEntries (rs.map (fun r ↦ (relationLine r).toList) ++ lines) =
      (rs ++ (readEntries lines).1, (readEntries lines).2) := by
  induction rs with
  | nil => rfl
  | cons r rs ih =>
    rw [List.forall_mem_cons] at h
    have hline : (relationLine r).toList = ' ' :: ' ' :: r.render.toList := by
      simp [relationLine]
    rw [List.map_cons, List.cons_append, hline, readEntries, ih h.2]
    simp [readRelation_render h.1]

theorem readEntries_header {header : List Char} (h : ∀ c ∈ header.head?, isWhiteSpace c = false)
    (lines : List (List Char)) :
    readEntries (header :: lines) =
      ([], (String.ofList header, (readEntries lines).1) :: (readEntries lines).2) := by
  rw [readEntries]
  rintro relation rfl
  have hspace := h ' ' rfl
  revert hspace
  decide

/-- Entries are read back from their lines. -/
theorem readEntries_flatMap {entries : List (String × List Relation)}
    (hheaders : ∀ entry ∈ entries, ∀ c ∈ entry.1.toList.head?, isWhiteSpace c = false)
    (hsubjects : ∀ entry ∈ entries, ∀ r ∈ entry.2, ' ' ∉ r.subject.toList) :
    readEntries (entries.flatMap fun entry ↦
      entry.1.toList :: entry.2.map fun r ↦ (relationLine r).toList) = ([], entries) := by
  induction entries with
  | nil => rfl
  | cons entry entries ih =>
    rw [List.forall_mem_cons] at hheaders hsubjects
    rw [List.flatMap_cons, List.cons_append, readEntries_header hheaders.1,
      readEntries_relations_append hsubjects.1, ih hheaders.2 hsubjects.2, String.ofList_toList,
      List.append_nil]

/-! ## Transcripts of runs -/

/-- The lines written about an equation without `--json`. -/
def transcriptLines (given : String × Equation) : List String :=
  given.1 :: given.2.relations.toList.map relationLine

section

variable {lines : List String} {given : String × Equation}

theorem isBlank_of_mem_accepted (h : given ∈ accepted lines) :
    ∀ c ∈ given.1.toList, isWhiteSpace c = true → isBlank c = true := by
  obtain ⟨⟨line, -, htext⟩, hparse⟩ := mem_accepted_iff.mp h
  rw [htext] at hparse ⊢
  exact Equation.isBlank_of_parse_trim hparse

theorem head?_of_mem_accepted (h : given ∈ accepted lines) :
    ∀ c ∈ given.1.toList.head?, isWhiteSpace c = false := by
  obtain ⟨⟨line, -, htext⟩, -⟩ := mem_accepted_iff.mp h
  rw [htext, Text.trim, String.toList_ofList]
  exact isWhiteSpace_of_mem_head?_trimmed line.toList

theorem isWritten_of_mem_accepted (h : given ∈ accepted lines) {r : Relation}
    (hr : r ∈ given.2.relations.toList) : r.IsWritten :=
  Equation.isWritten_of_mem_relations
    (Equation.isWritable_of_parse (mem_accepted_iff.mp h).2) hr

theorem notMem_of_mem_accepted (h : given ∈ accepted lines) {c : Char}
    (hspace : isWhiteSpace c = true) (hblank : isBlank c = false) : c ∉ given.1.toList := by
  intro hc
  rw [isBlank_of_mem_accepted h c hc hspace] at hblank
  cases hblank

theorem isSpacedOnly_relationLine {r : Relation} (h : r.IsWritten) :
    IsSpacedOnly (relationLine r).toList := by
  rw [relationLine, String.toList_append, isSpacedOnly_append]
  exact ⟨by decide, h.isSpacedOnly_render⟩

/-- No line of a transcript holds a line end. -/
theorem lineEnd_notMem_transcriptLines (h : given ∈ accepted lines) :
    ∀ line ∈ transcriptLines given, '\n' ∉ line.toList := by
  rw [transcriptLines, List.forall_mem_cons, List.forall_mem_map]
  refine ⟨notMem_of_mem_accepted h rfl rfl, fun r hr ↦ ?_⟩
  exact (isSpacedOnly_relationLine (isWritten_of_mem_accepted h hr)).notMem rfl (by decide)

theorem readTranscript_unlines (lines : List String) :
    readTranscript (unlines ((accepted lines).flatMap transcriptLines)) =
      (accepted lines).map fun given ↦ (given.1, given.2.relations.toList) := by
  have hlines : ∀ line ∈ (accepted lines).flatMap transcriptLines, '\n' ∉ line.toList := by
    intro line hline
    obtain ⟨given, hgiven, hline⟩ := List.mem_flatMap.mp hline
    exact lineEnd_notMem_transcriptLines hgiven line hline
  have hentries : ((accepted lines).flatMap transcriptLines).map String.toList =
      ((accepted lines).map fun given ↦ (given.1, given.2.relations.toList)).flatMap fun entry ↦
        entry.1.toList :: entry.2.map fun r ↦ (relationLine r).toList := by
    simp [List.map_flatMap, List.flatMap_map, transcriptLines, Function.comp_def]
  rw [readTranscript, lines_unlines hlines, hentries, readEntries_flatMap]
  · simp only [List.forall_mem_map]
    exact fun given hgiven ↦ head?_of_mem_accepted hgiven
  · simp only [List.forall_mem_map]
    exact fun given hgiven r hr ↦ (isWritten_of_mem_accepted hgiven hr).space_notMem

end

/-- Every line that is written without `--json` is a header or an indented relation. Read line by
line, the output tells which lines were accepted and which relations they have. -/
theorem readTranscript_stdout :
    (∀ {arguments lines : List String} {input : ByteArray} {options : Options},
      Given arguments input options lines → options.json = false →
      let stdout := (run arguments input).stdout
      stdout = unlines ((accepted lines).flatMap transcriptLines) ∧
      (∀ given ∈ accepted lines,
        Equation.parse given.1 = .ok given.2 ∧ given.1 ≠ "" ∧
        '\n' ∉ given.1.toList ∧ '\r' ∉ given.1.toList ∧
        (∀ c ∈ given.1.toList.head?, isWhiteSpace c = false) ∧
        ∀ r ∈ given.2.relations.toList,
          IsIdentifier r.subject.toList ∧
          (∃ formula : Expr, formula.HasWritableLeaves ∧
            relationLine r = "  " ++ r.subject ++ " = " ++ formula.render) ∧
          IsSpacedOnly (relationLine r).toList) ∧
      readTranscript stdout =
        (accepted lines).map fun given ↦ (given.1, given.2.relations.toList)) ∧
    ∀ {arguments arguments' lines lines' : List String} {input input' : ByteArray}
      {options options' : Options},
      Given arguments input options lines → Given arguments' input' options' lines' →
      options.json = false → options'.json = false →
      (run arguments input).stdout = (run arguments' input').stdout →
      accepted lines = accepted lines' := by
  have hstdout {arguments lines : List String} {input : ByteArray} {options : Options}
      (h : Given arguments input options lines) (hjson : options.json = false) :
      (run arguments input).stdout = unlines ((accepted lines).flatMap transcriptLines) := by
    have hlines : options.outputLines = transcriptLines := by
      funext given
      rw [Options.outputLines, hjson]
      rfl
    rw [h.run_eq, stdout_eq_unlines, hlines]
  refine ⟨fun {_ lines _ _} h hjson ↦ ?_, fun h h' hjson hjson' heq ↦ ?_⟩
  · refine ⟨hstdout h hjson, fun given hgiven ↦ ?_, ?_⟩
    · have hparse := (mem_accepted_iff.mp hgiven).2
      refine ⟨hparse, ne_empty_of_parse hparse, notMem_of_mem_accepted hgiven rfl rfl,
        notMem_of_mem_accepted hgiven rfl rfl, head?_of_mem_accepted hgiven, fun r hr ↦ ?_⟩
      have hwritten := isWritten_of_mem_accepted hgiven hr
      have hspaced := isSpacedOnly_relationLine hwritten
      obtain ⟨hsubject, formula, hformula, hrender⟩ := hwritten
      refine ⟨hsubject.1, ⟨formula, hformula, ?_⟩, hspaced⟩
      simp [relationLine, Relation.render, hrender, String.append_assoc]
    · rw [hstdout h hjson, readTranscript_unlines]
  · rw [hstdout h hjson, hstdout h' hjson'] at heq
    have hread := congrArg readTranscript heq
    rw [readTranscript_unlines, readTranscript_unlines] at hread
    apply accepted_eq_of_map_fst_eq
    simpa [Function.comp_def] using congrArg (List.map Prod.fst) hread

/-- A refused line leaves no trace and a bare expression is a header without relations; other white
space around the lines makes no difference. -/
theorem readTranscript_stdout_of_bare_expression :
    let arguments := ["\ta = b + c ", "x = (", "y"]
    let others := ["a = b + c\n", " ", "y"]
    let stdout := "a = b + c\n  a = b + c\n  b = a - c\n  c = a - b\ny\n"
    Given arguments .empty .default arguments ∧ Given others .empty .default others ∧
      Options.default.json = false ∧
      (run arguments .empty).stdout = stdout ∧ (run others .empty).stdout = stdout ∧
      readTranscript stdout =
        [("a = b + c", [⟨"a", "b + c"⟩, ⟨"b", "a - c"⟩, ⟨"c", "a - b"⟩]), ("y", [])] ∧
      accepted arguments = accepted others := by
  intro arguments others stdout
  obtain ⟨hread, hsame⟩ := readTranscript_stdout
  have hgiven : Given arguments .empty .default arguments := .arguments (by simp) (by decide)
  have hgiven' : Given others .empty .default others := .arguments (by simp) (by decide)
  have hstdout : (run arguments .empty).stdout = stdout := by decide +kernel
  have hstdout' : (run others .empty).stdout = stdout := by decide +kernel
  have hentries := (hread hgiven rfl).2.2
  rw [hstdout] at hentries
  exact ⟨hgiven, hgiven', rfl, hstdout, hstdout', hentries.trans (by decide +kernel),
    hsame hgiven hgiven' rfl rfl (hstdout.trans hstdout'.symm)⟩

end CommandLine

end ClosedForm
