import ClosedForm.Relation
import Mathlib.Data.Finset.Card

/-!
# Sessions on a set of relations

A set of relations is used step by step: relations are offered to it one at a time or many at once,
it is taken away, replaced, searched and compared. All that can be learned from it is told by the
history of what was offered since it was last taken or replaced. It holds the first occurrences in
that history, in order, and every step answers as the history says (`session_tells_history`).
-/

namespace ClosedForm.Relations

/-! ## Steps -/

/-- One use of a set of relations. -/
inductive Step where
  | insert (r : Relation)
  | extend (more : List Relation)
  /-- Goes on with a set made of these relations. -/
  | collect (items : List Relation)
  /-- Takes all relations away. -/
  | take
  | get (subject : String)
  | contains (subject : String)
  | compare (other : Relations)

inductive Answer where
  | done
  | yesNo (holds : Bool)
  | found (r : Option Relation)
  | taken (relations : List Relation)
  deriving DecidableEq

/-- What a step answers, and the set after it. -/
def Step.run (rs : Relations) : Step → Answer × Relations
  | insert r =>
    match rs.insert? r with
    | some larger => (.yesNo true, larger)
    | none => (.yesNo false, rs)
  | extend more => (.done, rs.extend more)
  | collect items => (.done, ofList items)
  | take => (.taken rs.toList, .empty)
  | get subject => (.found (rs.get? subject), rs)
  | contains subject => (.yesNo (rs.hasSubject subject), rs)
  | compare other => (.yesNo (rs = other), rs)

/-- What the steps answer one after the other, and the set after all of them. -/
def run (rs : Relations) : List Step → List Answer × Relations
  | [] => ([], rs)
  | step :: steps =>
    let first := step.run rs
    let others := run first.2 steps
    (first.1 :: others.1, others.2)

/-- The steps on a set that is empty at first. -/
def session (steps : List Step) : List Answer × Relations :=
  empty.run steps

/-! ## Histories -/

/-- The relations offered since the set was last taken or replaced, repetitions included, given
those before the step. -/
def Step.record (history : List Relation) : Step → List Relation
  | insert r => history ++ [r]
  | extend more => history ++ more
  | collect items => items
  | take => []
  | get _ | contains _ | compare _ => history

/-- What the step has to answer after a history. -/
def Step.answer (history : List Relation) : Step → Answer
  | insert r => .yesNo (r ∉ history)
  | extend _ | collect _ => .done
  | take => .taken history.eraseDups
  | get subject => .found (history.find? fun r ↦ r.subject = subject)
  | contains subject => .yesNo (∃ r ∈ history, r.subject = subject)
  | compare other => .yesNo (history.eraseDups = other.toList)

def answersFrom (history : List Relation) : List Step → List Answer
  | [] => []
  | step :: steps => step.answer history :: answersFrom (step.record history) steps

/-- The relations offered since the set was last taken or replaced. -/
def offered (steps : List Step) : List Relation :=
  steps.foldl Step.record []

/-! ## First occurrences -/

theorem ext_toList {rs others : Relations} (h : rs.toList = others.toList) : rs = others := by
  cases rs
  cases others
  congr

theorem eraseDups_append_singleton (history : List Relation) (r : Relation) :
    (history ++ [r]).eraseDups =
      if r ∈ history then history.eraseDups else history.eraseDups ++ [r] := by
  rw [List.eraseDups_append]
  by_cases hr : r ∈ history <;> simp [List.removeAll, hr, List.eraseDups_cons]

/-- The first relation with a property is its own first occurrence. -/
theorem find?_eraseDups (p : Relation → Bool) (history : List Relation) :
    history.eraseDups.find? p = history.find? p := by
  induction history using List.reverseRecOn with
  | nil => rfl
  | append_singleton history r ih =>
    rw [eraseDups_append_singleton, List.find?_append]
    split
    · next hr =>
      rw [ih]
      cases hfind : history.find? p with
      | some found => rfl
      | none =>
        have hp : ¬p r = true := List.find?_eq_none.mp hfind r hr
        simp [hp]
    · rw [List.find?_append, ih]

section

variable {rs : Relations} {history : List Relation}

theorem mem_iff_of_toList_eq (h : rs.toList = history.eraseDups) (r : Relation) :
    r ∈ rs.toList ↔ r ∈ history := by
  rw [h, List.mem_eraseDups]

theorem toList_insert_eq_eraseDups (h : rs.toList = history.eraseDups) (r : Relation) :
    (rs.insert r).toList = (history ++ [r]).eraseDups := by
  rw [toList_insert, eraseDups_append_singleton, ← h]
  simp only [mem_iff_of_toList_eq h r]

theorem toList_extend_eq_eraseDups (h : rs.toList = history.eraseDups) (more : List Relation) :
    (rs.extend more).toList = (history ++ more).eraseDups := by
  induction more generalizing rs history with
  | nil => simpa [extend] using h
  | cons r more ih =>
    calc
      (rs.extend (r :: more)).toList = ((rs.insert r).extend more).toList := rfl
      _ = (history ++ [r] ++ more).eraseDups := ih (toList_insert_eq_eraseDups h r)
      _ = (history ++ r :: more).eraseDups := by rw [List.append_assoc, List.singleton_append]

theorem isSome_insert?_iff (h : rs.toList = history.eraseDups) (r : Relation) :
    (rs.insert? r).isSome = true ↔ r ∉ history := by
  rw [← mem_iff_of_toList_eq h r, insert?]
  by_cases hr : r ∈ rs.toList <;> simp [hr]

theorem get?_eq_find? (h : rs.toList = history.eraseDups) (subject : String) :
    rs.get? subject = history.find? fun r ↦ r.subject = subject := by
  rw [get?, h, find?_eraseDups]
  rfl

theorem hasSubject_iff_of_toList_eq (h : rs.toList = history.eraseDups) (subject : String) :
    rs.hasSubject subject = true ↔ ∃ r ∈ history, r.subject = subject := by
  rw [hasSubject, get?_eq_find? h, List.find?_isSome]
  simp

theorem size_eq_card (h : rs.toList = history.eraseDups) : rs.size = history.toFinset.card := by
  have hmembers : rs.toList.toFinset = history.toFinset := by
    ext r
    rw [List.mem_toFinset, List.mem_toFinset, mem_iff_of_toList_eq h]
  rw [← hmembers, List.toFinset_card_of_nodup rs.nodup]
  rfl

/-- A step does to the set and answers what it does to the history and has to answer. -/
theorem run_step (h : rs.toList = history.eraseDups) (step : Step) :
    (step.run rs).1 = step.answer history ∧
      (step.run rs).2.toList = (step.record history).eraseDups := by
  cases step with
  | insert r =>
    have hset := toList_insert_eq_eraseDups h r
    have hnew := isSome_insert?_iff h r
    rw [insert] at hset
    cases hinsert : rs.insert? r with
    | some larger => simp_all [Step.run, Step.answer, Step.record]
    | none => simp_all [Step.run, Step.answer, Step.record]
  | extend more => exact ⟨rfl, toList_extend_eq_eraseDups h more⟩
  | collect items => exact ⟨rfl, @toList_extend_eq_eraseDups empty [] rfl items⟩
  | take => exact ⟨congrArg Answer.taken h, rfl⟩
  | get subject => exact ⟨congrArg Answer.found (get?_eq_find? h subject), h⟩
  | contains subject =>
    refine ⟨congrArg Answer.yesNo ?_, h⟩
    rw [Bool.eq_iff_iff, hasSubject_iff_of_toList_eq h, decide_eq_true_eq]
  | compare other =>
    refine ⟨congrArg Answer.yesNo (decide_eq_decide.mpr ?_), h⟩
    rw [← h]
    exact ⟨congrArg toList, ext_toList⟩

theorem run_steps (h : rs.toList = history.eraseDups) (steps : List Step) :
    (rs.run steps).1 = answersFrom history steps ∧
      (rs.run steps).2.toList = (steps.foldl Step.record history).eraseDups := by
  induction steps generalizing rs history with
  | nil => exact ⟨rfl, h⟩
  | cons step steps ih =>
    obtain ⟨hanswer, hset⟩ := run_step h step
    obtain ⟨hanswers, hlast⟩ := ih hset
    exact ⟨congrArg₂ List.cons hanswer hanswers, hlast⟩

end

/-! ## Sessions -/

theorem toList_session (steps : List Step) :
    (session steps).2.toList = (offered steps).eraseDups :=
  (run_steps rfl steps).2

theorem session_eq_iff {steps others : List Step} :
    (session steps).2 = (session others).2 ↔
      (offered steps).eraseDups = (offered others).eraseDups := by
  rw [← toList_session, ← toList_session]
  exact ⟨congrArg toList, ext_toList⟩

theorem offered_append (steps more : List Step) :
    offered (steps ++ more) = more.foldl Step.record (offered steps) :=
  List.foldl_append

theorem foldl_record_insert (history more : List Relation) :
    (more.map Step.insert).foldl Step.record history = history ++ more := by
  induction more generalizing history with
  | nil => simp
  | cons r more ih => simp [Step.record, ih]

/-- Relations that were offered before leave no trace. -/
theorem eraseDups_append_of_subset {history more : List Relation}
    (h : ∀ r ∈ more, r ∈ history) : (history ++ more).eraseDups = history.eraseDups := by
  have hnone : more.removeAll history = [] := by
    rw [List.removeAll, List.filter_eq_nil_iff]
    intro r hr
    simp [h r hr]
  rw [List.eraseDups_append, hnone, List.eraseDups_nil, List.append_nil]

/-- A session is told by its history: the relations offered since the set was last taken or
replaced, of which the set holds the first occurrences. -/
theorem session_tells_history :
    (∀ steps : List Step,
      let held := (session steps).2
      (session steps).1 = answersFrom [] steps ∧
      held.toList = (offered steps).eraseDups ∧
      held.size = (offered steps).toFinset.card ∧
      (∀ r, (held.insert? r).isSome = true ↔ r ∉ offered steps) ∧
      (∀ subject, held.get? subject = (offered steps).find? fun r ↦ r.subject = subject) ∧
      (∀ subject, held.hasSubject subject = true ↔ ∃ r ∈ offered steps, r.subject = subject) ∧
      (∀ more, (session (steps ++ [.extend more])).2 =
        (session (steps ++ more.map .insert)).2) ∧
      ∀ more, (∀ r ∈ more, r ∈ offered steps) → (session (steps ++ [.extend more])).2 = held) ∧
    ∀ steps others, (session steps).2 = (session others).2 ↔
      (offered steps).eraseDups = (offered others).eraseDups := by
  refine ⟨fun steps ↦ ?_, fun _ _ ↦ session_eq_iff⟩
  have hheld := toList_session steps
  have hextend (more : List Relation) :
      offered (steps ++ [.extend more]) = offered steps ++ more := offered_append steps _
  refine ⟨(run_steps rfl steps).1, hheld, size_eq_card hheld, isSome_insert?_iff hheld,
    get?_eq_find? hheld, hasSubject_iff_of_toList_eq hheld, fun more ↦ ?_, fun more hmore ↦ ?_⟩
  · rw [session_eq_iff, hextend, offered_append, foldl_record_insert]
  · rw [session_eq_iff, hextend]
    exact eraseDups_append_of_subset hmore

/-- A second formula for `a` is kept, an equal relation is not, and what was there before the set
was taken away does not count. -/
theorem session_tells_history_of_repetitions :
    let sum : Relation := ⟨"a", "b + c"⟩
    let swapped : Relation := ⟨"a", "c + b"⟩
    let steps : List Step := [.insert swapped, .take, .insert sum, .extend [swapped, sum],
      .insert sum, .get "a", .contains "b"]
    let held := (session steps).2
    (session steps).1 = [.yesNo true, .taken [swapped], .yesNo true, .done, .yesNo false,
      .found (some sum), .yesNo false] ∧
      held.toList = [sum, swapped] ∧ held.size = 2 ∧ (∀ r ∈ [swapped, sum], r ∈ offered steps) ∧
      (session (steps ++ [.extend [swapped, sum]])).2 = held ∧
      (session [.collect [swapped, sum]]).2 ≠ held := by
  intro sum swapped steps held
  obtain ⟨hsteps, hcompare⟩ := session_tells_history
  obtain ⟨hanswers, hlist, -, -, -, -, -, hagain⟩ := hsteps steps
  have hheld : held.toList = [sum, swapped] := hlist.trans (by decide)
  have hoffered : ∀ r ∈ [swapped, sum], r ∈ offered steps := by decide
  refine ⟨hanswers.trans (by decide), hheld, congrArg List.length hheld, hoffered,
    hagain [swapped, sum] hoffered, ?_⟩
  rw [ne_eq, hcompare]
  decide

end ClosedForm.Relations
