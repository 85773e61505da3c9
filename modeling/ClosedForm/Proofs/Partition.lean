import ClosedForm.Proofs.Isolable
import Mathlib.Data.List.Nodup

/-!
# Solved and unsolved variables

The relations of an equation list its isolable variables and the unsolvable variables are all
others, both in the order in which they appear in the equation (`relations_partition`). That the
relations are kept without repetitions takes none of them away, since no two have the same subject.
-/

namespace ClosedForm

theorem nodup_eraseDups (names : List String) : names.eraseDups.Nodup := by
  match names with
  | [] => exact List.nodup_nil
  | name :: names =>
    rw [List.eraseDups_cons, List.nodup_cons]
    constructor
    · simp
    · exact nodup_eraseDups _
termination_by names.length
decreasing_by exact Nat.lt_succ_of_le (List.length_filter_le _ _)

namespace Relations

/-- Relations that are all different are all kept. -/
theorem toList_extend {rs : Relations} {more : List Relation} (h : (rs.toList ++ more).Nodup) :
    (rs.extend more).toList = rs.toList ++ more := by
  induction more generalizing rs with
  | nil => simp [extend]
  | cons r more ih =>
    have hr : r ∉ rs.toList := fun hmem ↦ List.disjoint_of_nodup_append h hmem List.mem_cons_self
    have hinsert : (rs.insert r).toList = rs.toList ++ [r] := by rw [toList_insert, if_neg hr]
    have hkept : (rs.toList ++ [r]) ++ more = rs.toList ++ r :: more := by simp
    calc
      (rs.extend (r :: more)).toList = ((rs.insert r).extend more).toList := rfl
      _ = (rs.insert r).toList ++ more := ih (by rwa [hinsert, hkept])
      _ = rs.toList ++ r :: more := by rw [hinsert, hkept]

theorem toList_ofList {rs : List Relation} (h : rs.Nodup) : (ofList rs).toList = rs :=
  @toList_extend empty rs h

theorem hasSubject_iff {rs : Relations} {name : String} :
    rs.hasSubject name = true ↔ name ∈ rs.toList.map Relation.subject := by
  simp [hasSubject, get?, List.find?_isSome]

/-- The relations with a subject, if no two relations share one. -/
theorem filter_subject_eq {rs : List Relation} (h : (rs.map Relation.subject).Nodup) {r : Relation}
    (hr : r ∈ rs) : rs.filter (fun other ↦ other.subject = r.subject) = [r] := by
  have hsame : ∀ other ∈ rs, (other.subject = r.subject ↔ other = r) :=
    fun other hother ↦ ⟨fun heq ↦ List.inj_on_of_nodup_map h hother hr heq, congrArg _⟩
  have hcount : rs.count r = 1 := List.count_eq_one_of_mem h.of_map hr
  calc
    rs.filter (fun other ↦ other.subject = r.subject) = rs.filter (fun other ↦ other = r) :=
      List.filter_congr fun other hother ↦ by simp [hsame other hother]
    _ = List.replicate (rs.count r) r := List.filter_eq r
    _ = [r] := by rw [hcount, List.replicate_one]

end Relations

namespace Equation

variable (q : Equation)

/-- A variable has a relation of its own name if it is isolable, and otherwise none. -/
theorem map_subject_isolate (name : String) :
    (q.isolate (.whole name)).toOption.map Relation.subject =
      Option.guard (fun name ↦ q.Isolable name) name := by
  cases hresult : q.isolate (.whole name) with
  | ok r =>
    have hisolable : q.Isolable name := exists_isolate_iff.mp ⟨r, hresult⟩
    obtain ⟨formula, -, rfl⟩ := isolate_eq_ok_iff.mp hresult
    simp [Except.toOption, Option.guard, hisolable]
  | error obstacle =>
    have hstuck : ¬q.Isolable name := by
      intro hisolable
      obtain ⟨r, hr⟩ := exists_isolate_iff.mpr hisolable
      rw [hresult] at hr
      cases hr
    simp [Except.toOption, Option.guard, hstuck]

theorem nodup_vars : q.vars.Nodup :=
  nodup_eraseDups _

theorem map_subject_filterMap :
    (q.vars.filterMap fun name ↦ (q.isolate (.whole name)).toOption).map Relation.subject =
      q.vars.filter fun name ↦ q.Isolable name := by
  rw [List.map_filterMap, ← List.filterMap_eq_filter]
  exact congrArg (List.filterMap · q.vars) (funext q.map_subject_isolate)

theorem toList_relations :
    q.relations.toList = q.vars.filterMap fun name ↦ (q.isolate (.whole name)).toOption := by
  apply Relations.toList_ofList
  apply List.Nodup.of_map Relation.subject
  rw [map_subject_filterMap]
  exact q.nodup_vars.filter _

theorem map_subject_relations :
    q.relations.toList.map Relation.subject = q.vars.filter fun name ↦ q.Isolable name := by
  rw [toList_relations, map_subject_filterMap]

/-- The relations write out the formulas for the variables that have one. -/
theorem mem_relations_iff {r : Relation} :
    r ∈ q.relations.toList ↔
      r.subject ∈ q.vars ∧
        ∃ formula, q.rearrange (.whole r.subject) = .ok formula ∧ r.formula = formula.render := by
  have hresult (name : String) :
      (q.isolate (.whole name)).toOption = some r ↔ q.isolate (.whole name) = .ok r := by
    cases q.isolate (.whole name) <;> simp [Except.toOption]
  simp only [toList_relations, List.mem_filterMap, hresult, isolate_eq_ok_iff]
  constructor
  · rintro ⟨name, hname, formula, hformula, rfl⟩
    exact ⟨hname, formula, hformula, rfl⟩
  · rintro ⟨hname, formula, hformula, heq⟩
    exact ⟨r.subject, hname, formula, hformula, by rw [← heq]⟩

/-- An isolable variable has one relation, which writes out its formula. -/
theorem filter_relations_eq {name : String} {formula : Expr} (hname : name ∈ q.vars)
    (hformula : q.rearrange (.whole name) = .ok formula) :
    q.relations.toList.filter (fun r ↦ r.subject = name) = [⟨name, formula.render⟩] := by
  have hsubjects : (q.relations.toList.map Relation.subject).Nodup := by
    rw [map_subject_relations]
    exact q.nodup_vars.filter _
  have hmem : ⟨name, formula.render⟩ ∈ q.relations.toList :=
    q.mem_relations_iff.mpr ⟨hname, formula, hformula, rfl⟩
  exact Relations.filter_subject_eq hsubjects hmem

/-- The unsolvable variables are the ones that are not isolable. -/
theorem unsolvable_relations :
    q.unsolvable q.relations = q.vars.filter fun name ↦ ¬q.Isolable name := by
  apply List.filter_congr
  intro name hname
  have hsubject : q.relations.hasSubject name = decide (q.Isolable name) := by
    rw [Bool.eq_iff_iff, Relations.hasSubject_iff, map_subject_relations]
    simp [hname]
  simp [hsubject]

theorem nodup_subjects_append_unsolvable :
    (q.relations.toList.map Relation.subject ++ q.unsolvable q.relations).Nodup := by
  rw [map_subject_relations, unsolvable_relations]
  refine (q.nodup_vars.filter _).append (q.nodup_vars.filter _) ?_
  intro name hsolved hunsolved
  have hisolable : q.Isolable name := of_decide_eq_true (List.mem_filter.mp hsolved).2
  have hstuck : ¬q.Isolable name := of_decide_eq_true (List.mem_filter.mp hunsolved).2
  exact hstuck hisolable

end Equation

theorem solve_eq_error_iff {text : String} {error : SyntaxError} :
    solve text = .error error ↔ Equation.parse text = .error error := by
  unfold solve
  cases Equation.parse text <;> simp [Except.map]

theorem solve_eq_ok_iff {text : String} {rs : Relations} :
    solve text = .ok rs ↔ ∃ q, Equation.parse text = .ok q ∧ q.relations = rs := by
  unfold solve
  cases Equation.parse text <;> simp [Except.map]

/-- The variables of an equation are parted, in their order, into the subjects of the relations and
the unsolvable ones, and solving a text gives these relations for the equation in it. -/
theorem relations_partition :
    (∀ q : Equation,
      q.relations.toList.map Relation.subject = q.vars.filter (fun name ↦ q.Isolable name) ∧
      (∀ name ∈ q.vars, q.Isolable name → ∃ formula, q.rearrange (.whole name) = .ok formula ∧
        q.relations.toList.filter (fun r ↦ r.subject = name) = [⟨name, formula.render⟩]) ∧
      q.unsolvable q.relations = q.vars.filter (fun name ↦ ¬q.Isolable name) ∧
      (q.relations.toList.map Relation.subject ++ q.unsolvable q.relations).Nodup) ∧
    ∀ text,
      (∀ error, solve text = .error error ↔ Equation.parse text = .error error) ∧
      ∀ q, Equation.parse text = .ok q → solve text = .ok q.relations := by
  refine ⟨fun q ↦ ⟨q.map_subject_relations, ?_, q.unsolvable_relations,
    q.nodup_subjects_append_unsolvable⟩, fun text ↦ ⟨fun error ↦ solve_eq_error_iff, ?_⟩⟩
  · intro name hname hisolable
    obtain ⟨formula, hformula⟩ := Equation.exists_rearrange_iff.mpr hisolable
    exact ⟨formula, hformula, q.filter_relations_eq hname hformula⟩
  · intro q hq
    rw [solve, hq]
    rfl

/-- In `a = abs(b) + c * c + d` the first and the last variable are isolable. -/
theorem relations_partition_of_absolute_value :
    let q := Equation.equality (.var "a")
      (.add (.add (.call .abs (.var "b")) (.mul (.var "c") (.var "c"))) (.var "d"))
    let text := "a = abs(b) + c * c + d"
    q.relations.toList.map Relation.subject = ["a", "d"] ∧
      q.unsolvable q.relations = ["b", "c"] ∧
      "d" ∈ q.vars ∧ q.Isolable "d" ∧
      (∃ formula, q.rearrange (.whole "d") = .ok formula ∧
        q.relations.toList.filter (fun r ↦ r.subject = "d") = [⟨"d", formula.render⟩]) ∧
      Equation.parse text = .ok q ∧ solve text = .ok q.relations := by
  intro q text
  obtain ⟨hsubjects, hrelation, hunsolvable, -⟩ := relations_partition.1 q
  have hsolved : q.vars.filter (fun name ↦ q.Isolable name) = ["a", "d"] := by decide +kernel
  have hunsolved : q.vars.filter (fun name ↦ ¬q.Isolable name) = ["b", "c"] := by decide +kernel
  have hname : "d" ∈ q.vars := by decide +kernel
  have hisolable : q.Isolable "d" := by decide +kernel
  have hparse : Equation.parse text = .ok q := by decide +kernel
  exact ⟨hsubjects.trans hsolved, hunsolvable.trans hunsolved, hname, hisolable,
    hrelation "d" hname hisolable, hparse, (relations_partition.2 text).2 q hparse⟩

end ClosedForm
