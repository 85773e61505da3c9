import ClosedForm.Proofs.JsonGrammar
import ClosedForm.Proofs.LineByLine

/-!
# Reading JSON back

The text that is written for a set of relations or for a report is one line, and by the grammar it
is the text of one value and of no other: the relations in their order, and the equation as it was
given (`isTextOf_json_iff`).
-/

namespace ClosedForm

namespace Json

/-! ## Strings -/

theorem hexDigit?_digitChar : ∀ n < 16, hexDigit? (Nat.digitChar n) = some n := by
  decide

theorem codeUnit?_digitChar {n : Nat} (h : n < 0x20) :
    codeUnit? ['0', '0', Nat.digitChar (n / 16), Nat.digitChar (n % 16)] = some n := by
  have hzero : hexDigit? '0' = some 0 := by decide
  have hhigh := hexDigit?_digitChar (n / 16) (by omega)
  have hlow := hexDigit?_digitChar (n % 16) (by omega)
  simp only [codeUnit?, hzero, hhigh, hlow, Option.pure_def, Option.bind_eq_bind,
    Option.bind_some, Option.some.injEq]
  omega

theorem mem_escapes_of_escapeLetter? {c letter : Char} (h : escapeLetter? c = some letter) :
    (letter, c) ∈ escapes := by
  unfold escapeLetter? at h
  split at h <;> cases h <;> decide

theorem spelling_escape (c : Char) : Spelling (escape c) c := by
  cases hletter : escapeLetter? c with
  | some letter =>
    rw [escape, hletter]
    exact .escape (.letter (mem_escapes_of_escapeLetter? hletter))
  | none =>
    by_cases hcontrol : c.toNat < 0x20
    · have hescape := Escape.unit (codeUnit?_digitChar hcontrol) c.valid
      rw [Char.ofNat_toNat] at hescape
      rw [escape, hletter]
      simpa only [if_pos hcontrol] using Spelling.escape hescape
    · have hquote : c ≠ '"' := by
        rintro rfl
        cases hletter
      have hbackslash : c ≠ '\\' := by
        rintro rfl
        cases hletter
      have hplain := Spelling.plain (Nat.le_of_not_lt hcontrol) hquote hbackslash
      rw [escape, hletter]
      simpa only [if_neg hcontrol] using hplain

theorem spellings_escape (text : List Char) : Spellings (text.flatMap escape) text := by
  induction text with
  | nil => exact .nil
  | cons c text ih =>
    rw [List.flatMap_cons]
    exact .cons (spelling_escape c) ih

theorem toList_string (text : String) :
    (string text).toList = '"' :: (text.toList.flatMap escape ++ ['"']) := by
  simp [string]

theorem denotes_string (text : String) :
    Denotes (string text).toList (.value (.string text)) := by
  have hdenotes := Denotes.string (spellings_escape text.toList)
  rwa [String.ofList_toList, ← toList_string] at hdenotes

/-! ## Arrays and objects -/

theorem Denotes.item {cs : List Char} {v : Value} (h : Denotes cs (.value v)) :
    Denotes cs (.item none v) := by
  simpa using Denotes.element (List.forall_mem_nil _) h (List.forall_mem_nil _)

section

variable {α : Type}

theorem denotes_items {items : List α} {text : α → String} {item : α → Option String × Value}
    (h : ∀ a ∈ items, Denotes (text a).toList (.item (item a).1 (item a).2)) :
    Denotes (",".intercalate (items.map text)).toList (.items (items.map item)) := by
  induction items with
  | nil => exact .noItems (List.forall_mem_nil _)
  | cons a items ih =>
    rw [List.forall_mem_cons] at h
    have hrest := ih h.2
    cases items with
    | nil => simpa using Denotes.lastItem h.1
    | cons b items => simpa [String.intercalate_cons_cons] using Denotes.nextItem h.1 hrest

theorem denotes_array {items : List α} {text : α → String} {value : α → Value}
    (h : ∀ a ∈ items, Denotes (text a).toList (.value (value a))) :
    Denotes (array (items.map text)).toList (.value (.array (items.map value))) := by
  have hitems : Denotes (",".intercalate (items.map text)).toList
      (.items ((items.map value).map fun v ↦ (none, v))) := by
    rw [List.map_map]
    exact denotes_items fun a ha ↦ (h a ha).item
  simpa [array] using Denotes.array hitems

theorem denotes_object {members : List (String × String × Value)}
    (h : ∀ m ∈ members, Denotes m.2.1.toList (.value m.2.2)) :
    Denotes (object (members.map fun m ↦ (m.1, m.2.1))).toList
      (.value (.object (members.map fun m ↦ (m.1, m.2.2)))) := by
  have hmember : ∀ m ∈ members, Denotes (string m.1 ++ ":" ++ m.2.1).toList
      (.item (some m.1) m.2.2) := by
    intro m hm
    have hname := spellings_escape m.1.toList
    have hdenotes := Denotes.member (List.forall_mem_nil _) hname (List.forall_mem_nil _)
      (h m hm).item
    rw [String.ofList_toList] at hdenotes
    simpa [toList_string] using hdenotes
  have hitems : Denotes (",".intercalate (members.map fun m ↦ string m.1 ++ ":" ++ m.2.1)).toList
      (.items ((members.map fun m ↦ (m.1, m.2.2)).map fun m ↦ (some m.1, m.2))) := by
    rw [List.map_map]
    exact denotes_items hmember
  simpa [object, Function.comp_def] using Denotes.object hitems

end

theorem isTextOf_iff {text : String} {v w : Value} (h : Denotes text.toList (.value v)) :
    IsTextOf text w ↔ w = v := by
  constructor
  · exact fun hw ↦ IsTextOf.unique hw h.item
  · rintro rfl
    exact h.item

/-! ## Control characters -/

/-- No character below U+0020 stands in the text. -/
def HasNoControls (text : String) : Prop :=
  ∀ c ∈ text.toList, 0x20 ≤ c.toNat

instance (text : String) : Decidable (HasNoControls text) :=
  List.decidableBAll (fun c : Char ↦ 0x20 ≤ c.toNat) text.toList

theorem hasNoControls_append {text more : String} :
    HasNoControls (text ++ more) ↔ HasNoControls text ∧ HasNoControls more := by
  simp only [HasNoControls, String.toList_append, List.forall_mem_append]

theorem HasNoControls.intercalate {texts : List String} (h : ∀ text ∈ texts, HasNoControls text) :
    HasNoControls (",".intercalate texts) := by
  induction texts with
  | nil => decide
  | cons text texts ih =>
    rw [List.forall_mem_cons] at h
    cases texts with
    | nil => simpa using h.1
    | cons next texts =>
      rw [String.intercalate_cons_cons, hasNoControls_append, hasNoControls_append]
      exact ⟨⟨h.1, by decide⟩, ih h.2⟩

theorem le_toNat_of_mem_escape (c : Char) : ∀ d ∈ escape c, 0x20 ≤ d.toNat := by
  have hletters : ∀ p ∈ escapes, 0x20 ≤ p.1.toNat := by decide
  have hdigits : ∀ n < 16, 0x20 ≤ (Nat.digitChar n).toNat := by decide
  unfold escape
  split
  · next letter hletter =>
    have hmem := hletters _ (mem_escapes_of_escapeLetter? hletter)
    simpa using hmem
  · split
    · next hcontrol =>
      have hhigh := hdigits (c.toNat / 16) (by omega)
      have hlow := hdigits (c.toNat % 16) (by omega)
      simpa using ⟨hhigh, hlow⟩
    · next hcontrol => simpa using Nat.le_of_not_lt hcontrol

theorem hasNoControls_string (text : String) : HasNoControls (string text) := by
  simp only [HasNoControls, toList_string, List.forall_mem_cons, List.forall_mem_append,
    List.forall_mem_flatMap]
  exact ⟨by decide, fun c _ ↦ le_toNat_of_mem_escape c, by decide, List.forall_mem_nil _⟩

theorem hasNoControls_array {items : List String} (h : ∀ item ∈ items, HasNoControls item) :
    HasNoControls (array items) := by
  rw [array, hasNoControls_append, hasNoControls_append]
  exact ⟨⟨by decide, .intercalate h⟩, by decide⟩

theorem hasNoControls_object {members : List (String × String)}
    (h : ∀ m ∈ members, HasNoControls m.2) : HasNoControls (object members) := by
  have hmembers : ∀ text ∈ members.map fun m ↦ string m.1 ++ ":" ++ m.2, HasNoControls text := by
    rw [List.forall_mem_map]
    intro m hm
    rw [hasNoControls_append, hasNoControls_append]
    exact ⟨⟨hasNoControls_string m.1, by decide⟩, h m hm⟩
  rw [object, hasNoControls_append, hasNoControls_append]
  exact ⟨⟨by decide, .intercalate hmembers⟩, by decide⟩

end Json

open Json (Value Denotes IsTextOf HasNoControls)

/-! ## Relations -/

namespace Relation

def jsonValue (r : Relation) : Value :=
  .object [("variable", .string r.subject), ("expression", .string r.formula)]

theorem jsonValue_injective : Function.Injective jsonValue := by
  rintro ⟨subject, formula⟩ ⟨other, otherFormula⟩ h
  simpa [jsonValue] using h

theorem denotes_json (r : Relation) : Denotes r.json.toList (.value r.jsonValue) :=
  @Json.denotes_object [("variable", Json.string r.subject, .string r.subject),
    ("expression", Json.string r.formula, .string r.formula)]
    (by simp [Json.denotes_string])

theorem hasNoControls_json (r : Relation) : HasNoControls r.json :=
  Json.hasNoControls_object (by simp [Json.hasNoControls_string])

end Relation

namespace Relations

def jsonValue (rs : Relations) : Value :=
  .array (rs.toList.map Relation.jsonValue)

theorem jsonValue_injective : Function.Injective jsonValue := by
  rintro ⟨rs, _⟩ ⟨others, _⟩ h
  obtain rfl := List.map_injective_iff.mpr Relation.jsonValue_injective (Value.array.inj h)
  rfl

theorem denotes_json (rs : Relations) : Denotes rs.json.toList (.value rs.jsonValue) :=
  Json.denotes_array fun r _ ↦ r.denotes_json

theorem hasNoControls_json (rs : Relations) : HasNoControls rs.json :=
  Json.hasNoControls_array (List.forall_mem_map.mpr fun r _ ↦ r.hasNoControls_json)

end Relations

/-! ## Reports -/

namespace Report

def jsonValue (report : Report) : Value :=
  .object [("equation", .string report.given), ("relations", report.relations.jsonValue)]

theorem jsonValue_eq_iff {report other : Report} :
    report.jsonValue = other.jsonValue ↔
      report.given = other.given ∧ report.relations = other.relations := by
  simp [jsonValue, Relations.jsonValue_injective.eq_iff]

theorem denotes_json (report : Report) :
    Denotes report.json.toList (.value report.jsonValue) :=
  @Json.denotes_object [("equation", Json.string report.given, .string report.given),
    ("relations", report.relations.json, report.relations.jsonValue)]
    (by simp [Json.denotes_string, report.relations.denotes_json])

theorem hasNoControls_json (report : Report) : HasNoControls report.json :=
  Json.hasNoControls_object
    (by simp [Json.hasNoControls_string, report.relations.hasNoControls_json])

end Report

namespace CommandLine

/-- With `--json` one line is written for each accepted line. -/
theorem lines_stdout_of_json {arguments lines : List String} {input : ByteArray}
    {options : Options} (h : Given arguments input options lines) (hjson : options.json = true) :
    Text.lines (run arguments input).stdout.toList =
      (accepted lines).map fun given ↦ (reportOn given.1 given.2).json.toList := by
  have hlines : options.outputLines = fun given ↦ [(reportOn given.1 given.2).json] := by
    funext given
    rw [Options.outputLines, hjson]
    rfl
  have hcontrols : ∀ line ∈ (accepted lines).map fun given ↦ (reportOn given.1 given.2).json,
      '\n' ∉ line.toList := by
    rw [List.forall_mem_map]
    intro given _ hmem
    have hcontrol := (reportOn given.1 given.2).hasNoControls_json '\n' hmem
    revert hcontrol
    decide
  rw [h.run_eq, stdout_eq_unlines, hlines, ← List.map_eq_flatMap, lines_unlines hcontrols,
    List.map_map]
  rfl

end CommandLine

open CommandLine (Given Options accepted reportOn run)

/-- The text of relations is the text of one value, the list of their subjects and formulas, and so
is the text of a report. With `--json` each accepted line is answered by one such text. -/
theorem isTextOf_json_iff :
    (∀ rs : Relations,
      (∀ v, IsTextOf rs.json v ↔ v = rs.jsonValue) ∧
      (∀ pairs : List Relation,
        IsTextOf rs.json (.array (pairs.map Relation.jsonValue)) ↔ pairs = rs.toList) ∧
      HasNoControls rs.json ∧
      ∀ other : Relations, rs.json = other.json ↔ rs = other) ∧
    (∀ report : Report,
      (∀ v, IsTextOf report.json v ↔ v = report.jsonValue) ∧
      HasNoControls report.json ∧
      ∀ other : Report, report.json = other.json ↔
        report.given = other.given ∧ report.relations = other.relations) ∧
    ∀ {arguments lines : List String} {input : ByteArray} {options : Options},
      Given arguments input options lines → options.json = true →
      List.Forall₂
        (fun line given ↦ HasNoControls (String.ofList line) ∧
          ∀ v, IsTextOf (String.ofList line) v ↔
            v = .object [("equation", .string given.1),
              ("relations", given.2.relations.jsonValue)])
        (Text.lines (run arguments input).stdout.toList) (accepted lines) := by
  have hrelations (rs : Relations) (v : Value) : IsTextOf rs.json v ↔ v = rs.jsonValue :=
    Json.isTextOf_iff rs.denotes_json
  have hreport (report : Report) (v : Value) : IsTextOf report.json v ↔ v = report.jsonValue :=
    Json.isTextOf_iff report.denotes_json
  refine ⟨fun rs ↦ ⟨hrelations rs, fun pairs ↦ ?_, rs.hasNoControls_json, fun other ↦ ?_⟩,
    fun report ↦ ⟨hreport report, report.hasNoControls_json, fun other ↦ ?_⟩,
    fun {_ lines _ _} h hjson ↦ ?_⟩
  · rw [hrelations, Relations.jsonValue, Value.array.injEq]
    exact (List.map_injective_iff.mpr Relation.jsonValue_injective).eq_iff
  · refine ⟨fun heq ↦ Relations.jsonValue_injective ?_, congrArg Relations.json⟩
    exact (hrelations other _).mp (heq ▸ rs.denotes_json.item)
  · constructor
    · intro heq
      apply Report.jsonValue_eq_iff.mp
      exact (hreport other _).mp (heq ▸ report.denotes_json.item)
    · rintro ⟨hgiven, hsame⟩
      rw [Report.json, Report.json, hgiven, hsame]
  · rw [CommandLine.lines_stdout_of_json h hjson, List.forall₂_map_left_iff, List.forall₂_same]
    intro given _
    rw [String.ofList_toList]
    exact ⟨(reportOn given.1 given.2).hasNoControls_json, hreport _⟩

/-- Quotes, backslashes and line ends in a relation, and a run of which one line is refused. -/
theorem isTextOf_json_iff_of_refused_line :
    let r : Relation := ⟨"é\"", "\\ \n\x01"⟩
    let text :=
      "[\x7b\"variable\":\"é\\\"\",\"expression\":\"\\\\ \\n\\u0001\"\x7d]"
    let arguments := ["--json", " a = b\t", "x = ("]
    let line := "\x7b\"equation\":\"a = b\",\"relations\":[" ++
      "\x7b\"variable\":\"a\",\"expression\":\"b\"\x7d," ++
      "\x7b\"variable\":\"b\",\"expression\":\"a\"\x7d]\x7d"
    (∀ v, IsTextOf text v ↔ v = .array [r.jsonValue]) ∧
      Given arguments .empty ⟨true, false⟩ [" a = b\t", "x = ("] ∧
      (run arguments .empty).stdout = line ++ "\n" ∧
      HasNoControls line ∧
      ∀ v, IsTextOf line v ↔ v = .object [("equation", .string "a = b"),
        ("relations", .array [Relation.jsonValue ⟨"a", "b"⟩, Relation.jsonValue ⟨"b", "a"⟩])] := by
  intro r text arguments line
  obtain ⟨hrelations, -, hlines⟩ := isTextOf_json_iff
  have htext : (Relations.ofList [r]).json = text := by decide +kernel
  have hvalue : (Relations.ofList [r]).toList = [r] := by decide +kernel
  have hread := (hrelations (.ofList [r])).1
  rw [htext, Relations.jsonValue, hvalue] at hread
  have hgiven : Given arguments .empty ⟨true, false⟩ [" a = b\t", "x = ("] :=
    .arguments (by simp) (by decide)
  have hstdout : (run arguments .empty).stdout = line ++ "\n" := by decide +kernel
  have hsplit : Text.lines (line ++ "\n").toList = [line.toList] := by decide +kernel
  have haccepted : accepted [" a = b\t", "x = ("] =
      [("a = b", .equality (.var "a") (.var "b"))] := by
    decide +kernel
  have hfound : (Equation.equality (.var "a") (.var "b")).relations.toList =
      [⟨"a", "b"⟩, ⟨"b", "a"⟩] := by
    decide +kernel
  have hanswers := hlines hgiven rfl
  rw [hstdout, hsplit, haccepted] at hanswers
  simp only [List.forall₂_cons, String.ofList_toList, Relations.jsonValue, hfound] at hanswers
  exact ⟨hread, hgiven, hstdout, hanswers.1⟩

end ClosedForm
