import ClosedForm.Census
import ClosedForm.Proofs.Conservation
import ClosedForm.Proofs.Exchange
import ClosedForm.Proofs.Substitution
import Mathlib.Data.List.Forall2
import Mathlib.Data.List.Induction

/-!
# Counting and collecting

A census can be taken in one traversal that records the count of each node when it leaves it, and
the variables of an equation can be collected in one traversal that appends every name it has not
met before (`Census.counts_whole_eq_tally`, `vars_eq_collect`). The counts are exact as far as they
go, and they agree with what else is known about a node: none is counted where the variable is not
mentioned, which is where it is not among the variables (`tallies_agree`).
-/

namespace ClosedForm

/-! ## Exact counts -/

namespace Occurrences

/-- What a count says about a number. -/
def Tells : Occurrences → Nat → Prop
  | none, n => n = 0
  | once, n => n = 1
  | many, n => 2 ≤ n

theorem tells_iff {count : Occurrences} {n : Nat} : count.Tells n ↔ count = ofCount n := by
  match n with
  | 0 | 1 | n + 2 => cases count <;> simp [Tells, ofCount]

/-- The least number that counts as much. -/
def weight : Occurrences → Nat
  | none => 0
  | once => 1
  | many => 2

/-- The sum of the steps, with each as small as it may be. -/
def total (steps : List Occurrences) : Nat :=
  steps.foldr (fun step rest ↦ step.weight + rest) 0

theorem tells_weight (count : Occurrences) : count.Tells count.weight := by
  cases count with
  | none | once => rfl
  | many => exact Nat.le_refl 2

theorem Tells.add {a b : Occurrences} {m n : Nat} (ha : a.Tells m) (hb : b.Tells n) :
    (a + b).Tells (m + n) := by
  rw [tells_iff] at ha hb ⊢
  rw [ha, hb, ofCount_add]

theorem Tells.foldl {count : Occurrences} {n : Nat} (h : count.Tells n) (steps : List Occurrences) :
    (steps.foldl (· + ·) count).Tells (n + total steps) := by
  induction steps generalizing count n with
  | nil => exact h
  | cons step steps ih =>
    have hnext := ih (h.add step.tells_weight)
    rwa [Nat.add_assoc] at hnext

/-- A running sum tells the total of its steps. -/
theorem tells_total (steps : List Occurrences) :
    (steps.foldl (· + ·) none).Tells (total steps) := by
  have hzero : none.Tells 0 := rfl
  have hsum := hzero.foldl steps
  rwa [Nat.zero_add] at hsum

end Occurrences

namespace Expr

/-- What the count of a node has to be. -/
structure Counts (name : String) (node : Expr) (count : Occurrences) : Prop where
  leaves : count.Tells (node.leaves.count name)
  mentions : count = .none ↔ node.mentions name = false
  vars : count = .none ↔ name ∉ node.vars

theorem counts_occurrences (name : String) (node : Expr) :
    Counts name node (node.occurrences name) := by
  have hleaves : (node.occurrences name).Tells (node.leaves.count name) :=
    Occurrences.tells_iff.mpr (node.occurrences_eq name)
  have hnone : node.occurrences name = .none ↔ name ∉ node.leaves := by
    rw [← List.count_eq_zero]
    constructor
    · intro h
      rwa [h] at hleaves
    · intro h
      rw [occurrences_eq, h]
      rfl
  exact ⟨hleaves, by rw [hnone, mentions_eq_false_iff], by rw [hnone, mem_vars_iff]⟩

/-- Counts a variable in an expression and records the counts of all nodes on the way, each when it
is left. -/
def tally (name : String) : Expr → Occurrences × List Occurrences
  | number _ => (.none, [.none])
  | var other =>
    let count := if other = name then .once else .none
    (count, [count])
  | unary _ operand =>
    let inner := operand.tally name
    (inner.1, inner.2 ++ [inner.1])
  | binary _ left right =>
    let first := left.tally name
    let second := right.tally name
    (first.1 + second.1, first.2 ++ second.2 ++ [first.1 + second.1])

theorem tally_eq (name : String) (e : Expr) :
    e.tally name = (e.occurrences name, e.subterms.map (occurrences name)) := by
  induction e with
  | number text | var other => rfl
  | unary op operand ih =>
    rw [tally, ih, subterms, List.map_append]
    rfl
  | binary op left right ihl ihr =>
    rw [tally, ihl, ihr, subterms, List.map_append, List.map_append]
    rfl

end Expr

/-! ## Names in order -/

/-- Names in the order in which they first stand among the leaves, each once. -/
structure AreFirstOf (names leaves : List String) : Prop where
  mem_iff : ∀ name, name ∈ names ↔ name ∈ leaves
  nodup : names.Nodup
  ordered : names.Pairwise fun name later ↦ leaves.idxOf name < leaves.idxOf later

theorem pairwise_idxOf_eraseDups (names : List String) :
    names.eraseDups.Pairwise fun name later ↦ names.idxOf name < names.idxOf later := by
  induction names using List.reverseRecOn with
  | nil => exact .nil
  | append_singleton names last ih =>
    have hold : names.eraseDups.Pairwise fun name later ↦
        (names ++ [last]).idxOf name < (names ++ [last]).idxOf later := by
      refine ih.imp_of_mem fun hname hlater hlt ↦ ?_
      rwa [List.idxOf_append_of_mem (List.mem_eraseDups.mp hname),
        List.idxOf_append_of_mem (List.mem_eraseDups.mp hlater)]
    rw [List.eraseDups_append]
    by_cases hlast : last ∈ names
    · simpa [List.removeAll, hlast] using hold
    · have hnew : ([last].removeAll names).eraseDups = [last] := by
        simp [List.removeAll, hlast, List.eraseDups_cons]
      rw [hnew, List.pairwise_append]
      refine ⟨hold, List.pairwise_singleton _ _, fun name hname later hlater ↦ ?_⟩
      rw [List.mem_singleton.mp hlater, List.idxOf_append_of_notMem hlast,
        List.idxOf_append_of_mem (List.mem_eraseDups.mp hname)]
      exact Nat.lt_add_right _ (List.idxOf_lt_length_iff.mpr (List.mem_eraseDups.mp hname))

theorem areFirstOf_eraseDups (names : List String) : AreFirstOf names.eraseDups names :=
  ⟨fun _ ↦ List.mem_eraseDups, nodup_eraseDups names, pairwise_idxOf_eraseDups names⟩

theorem eraseDups_filter (p : String → Bool) (names : List String) :
    (names.filter p).eraseDups = names.eraseDups.filter p := by
  match names with
  | [] => rfl
  | name :: names =>
    have hothers := eraseDups_filter p (names.filter fun other ↦ !other == name)
    rw [List.eraseDups_cons]
    by_cases hname : p name = true
    · rw [List.filter_cons_of_pos hname, List.filter_cons_of_pos hname, List.eraseDups_cons,
        ← hothers, List.filter_filter, List.filter_filter]
      simp only [Bool.and_comm]
    · rw [List.filter_cons_of_neg hname, List.filter_cons_of_neg hname, ← hothers,
        List.filter_filter]
      apply congrArg List.eraseDups
      apply List.filter_congr
      intro other _
      by_cases hsame : other = name
      · subst hsame
        simp [hname]
      · simp [hsame]
termination_by names.length
decreasing_by exact Nat.lt_succ_of_le (List.length_filter_le _ _)

/-- Appends a name unless it has been met before. -/
def collectName (found : List String) (name : String) : List String :=
  if name ∈ found then found else found ++ [name]

theorem foldl_collectName (found names : List String) :
    names.foldl collectName found = found ++ (names.filter (· ∉ found)).eraseDups := by
  induction names generalizing found with
  | nil => simp
  | cons name names ih =>
    rw [List.foldl_cons, ih, collectName]
    split
    · next hname => rw [List.filter_cons_of_neg (by simpa using hname)]
    · next hname =>
      have hfilter : names.filter (· ∉ found ++ [name]) =
          (names.filter (· ∉ found)).filter fun other ↦ !other == name := by
        rw [List.filter_filter]
        apply List.filter_congr
        intro other _
        simp [and_comm, beq_eq_decide]
      rw [List.filter_cons_of_pos (by simpa using hname), List.eraseDups_cons, hfilter,
        List.append_assoc]
      rfl

theorem eraseDups_append_eq (names others : List String) :
    (names ++ others).eraseDups =
      names.eraseDups ++ others.eraseDups.filter (· ∉ names.eraseDups) := by
  rw [List.eraseDups_append, ← eraseDups_filter]
  simp [List.removeAll]

namespace Expr

/-- Appends the variables of an expression to the names found before, from left to right. -/
def collect (found : List String) : Expr → List String
  | number _ => found
  | var name => collectName found name
  | unary _ operand => operand.collect found
  | binary _ left right => right.collect (left.collect found)

theorem collect_eq_foldl (found : List String) (e : Expr) :
    e.collect found = e.leaves.foldl collectName found := by
  induction e generalizing found with
  | number text | var name => rfl
  | unary op operand ih => exact ih found
  | binary op left right ihl ihr => rw [collect, ihl, ihr, leaves, List.foldl_append]

end Expr

namespace Equation

theorem vars_eq_collect (q : Equation) : q.vars = q.sides.foldl Expr.collect [] := by
  have hnames : q.sides.foldl Expr.collect [] =
      (q.sides.flatMap Expr.leaves).foldl collectName [] := by
    rw [List.foldl_flatMap]
    exact congrArg (List.foldl · [] q.sides) (funext₂ Expr.collect_eq_foldl)
  rw [hnames, foldl_collectName]
  simp [vars]

theorem vars_equality_eq (left right : Expr) :
    (equality left right).vars = left.vars ++ right.vars.filter (· ∉ left.vars) := by
  rw [vars_equality, eraseDups_append_eq]
  rfl

end Equation

/-! ## Censuses -/

/-- The sides of an equation, a bare expression being a left one. -/
def Equation.parts : Equation → List (Side × Expr)
  | expression e => [(.left, e)]
  | equality left right => [(.left, left), (.right, right)]

namespace Census

variable (census : Census) (side : Side) (node : Expr)

/-- What a census has to record for a node of a side. -/
structure Records (count : Occurrences) : Prop where
  covered : census.scope.covers side = true → node.Counts census.subject count
  uncovered : census.scope.covers side = false → count = .none

theorem records_occurrences : census.Records side node (census.occurrences side node) := by
  constructor
  · intro hcovers
    rw [occurrences, if_pos hcovers]
    exact node.counts_occurrences census.subject
  · intro huncovered
    rw [occurrences, if_neg (by simp [huncovered])]

/-- A count for each node of a side, operands before operations. -/
def IsTally (part : Side × Expr) (counts : List Occurrences) : Prop :=
  List.Forall₂ (census.Records part.1) part.2.subterms counts

theorem isTally_map_occurrences (e : Expr) :
    census.IsTally (side, e) (e.subterms.map (census.occurrences side)) := by
  rw [IsTally, List.forall₂_map_right_iff, List.forall₂_same]
  exact fun node _ ↦ census.records_occurrences side node

theorem forall₂_isTally_counts (q : Equation) :
    List.Forall₂ census.IsTally q.parts (census.counts q) := by
  cases q with
  | expression e => exact .cons (census.isTally_map_occurrences .left e) .nil
  | equality left right =>
    exact .cons (census.isTally_map_occurrences .left left)
      (.cons (census.isTally_map_occurrences .right right) .nil)

theorem counts_whole_eq_tally (name : String) (q : Equation) :
    (whole name).counts q = q.sides.map fun e ↦ (e.tally name).2 := by
  simp only [Expr.tally_eq]
  cases q with
  | expression e | equality left right => rfl

end Census

/-- A census records for each node of the sides it covers how often its subject stands there, which
is never exactly if the node does not mention it, exactly if it is not among the variables of the
node. For nodes of other sides it records that there is nothing. A single traversal would find the
same counts and another one the same variables: each once, in the order of first appearance, the
left side before the right one. Counts may be added up in steps. -/
theorem tallies_agree :
    (∀ (census : Census) (q : Equation),
      List.Forall₂ census.IsTally q.parts (census.counts q)) ∧
    (∀ name (q : Equation),
      (Census.whole name).counts q = q.sides.map fun e ↦ (e.tally name).2) ∧
    (∀ e : Expr, AreFirstOf e.vars e.leaves) ∧
    (∀ e : Expr, (Equation.expression e).vars = e.vars) ∧
    (∀ left right : Expr, (Equation.equality left right).vars =
      left.vars ++ right.vars.filter (· ∉ left.vars)) ∧
    (∀ q : Equation, q.vars = q.sides.foldl Expr.collect []) ∧
    ∀ steps : List Occurrences,
      (steps.foldl (· + ·) Occurrences.none).Tells (Occurrences.total steps) := by
  refine ⟨Census.forall₂_isTally_counts, Census.counts_whole_eq_tally,
    fun e ↦ areFirstOf_eraseDups e.leaves, fun e ↦ ?_, Equation.vars_equality_eq,
    Equation.vars_eq_collect, Occurrences.tells_total⟩
  simp [Equation.vars, Equation.sides, Expr.vars]

end ClosedForm
