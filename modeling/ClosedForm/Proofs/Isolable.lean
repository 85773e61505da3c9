import ClosedForm.Proofs.Places
import ClosedForm.Solution
import Mathlib.Logic.Basic

/-!
# Isolable variables

What makes a variable isolable is said here without places and layers: the equation equates two
sides, one leaf in all carries the name, and no absolute value stands on the path from the root of
a side down to that leaf. These are the variables that have a formula (`exists_rearrange_iff`), and
the condition can be decided without looking for one.
-/

namespace ClosedForm

/-! ## Paths -/

namespace Expr

/-- The nodes from the root of a tree down to a leaf of a variable, both included. -/
inductive Path (name : String) : Expr → List Expr → Prop where
  | leaf : Path name (var name) [var name]
  | unary (op : UnaryOp) {operand : Expr} {nodes : List Expr} (h : Path name operand nodes) :
      Path name (unary op operand) (unary op operand :: nodes)
  | left (op : BinaryOp) {left : Expr} (right : Expr) {nodes : List Expr}
      (h : Path name left nodes) : Path name (binary op left right) (binary op left right :: nodes)
  | right (op : BinaryOp) (left : Expr) {right : Expr} {nodes : List Expr}
      (h : Path name right nodes) : Path name (binary op left right) (binary op left right :: nodes)

theorem exists_path_iff {name : String} {e : Expr} :
    (∃ nodes, e.Path name nodes) ↔ name ∈ e.leaves := by
  induction e with
  | number text =>
    refine iff_of_false ?_ List.not_mem_nil
    rintro ⟨nodes, hpath⟩
    cases hpath
  | var other =>
    rw [leaves, List.mem_singleton]
    constructor
    · rintro ⟨nodes, hpath⟩
      cases hpath
      rfl
    · rintro rfl
      exact ⟨_, .leaf⟩
  | unary op operand ih =>
    rw [leaves, ← ih]
    constructor
    · rintro ⟨nodes, hpath⟩
      cases hpath with
      | unary op h => exact ⟨_, h⟩
    · rintro ⟨nodes, hpath⟩
      exact ⟨_, hpath.unary op⟩
  | binary op left right ihl ihr =>
    rw [leaves, List.mem_append, ← ihl, ← ihr]
    constructor
    · rintro ⟨nodes, hpath⟩
      cases hpath with
      | left op right h => exact .inl ⟨_, h⟩
      | right op left h => exact .inr ⟨_, h⟩
    · rintro (⟨nodes, hpath⟩ | ⟨nodes, hpath⟩)
      · exact ⟨_, hpath.left op right⟩
      · exact ⟨_, hpath.right op left⟩

/-- An absolute value stands on the path to a leaf of the variable. -/
def Hides (name : String) (e : Expr) : Prop :=
  ∃ nodes, e.Path name nodes ∧ ∃ argument, call .abs argument ∈ nodes

theorem not_hides_number (name text : String) : ¬(number text).Hides name := by
  rintro ⟨nodes, hpath, -⟩
  cases hpath

theorem not_hides_var (name other : String) : ¬(var other).Hides name := by
  rintro ⟨nodes, hpath, argument, hmem⟩
  cases hpath
  simp at hmem

theorem hides_unary_iff {name : String} {op : UnaryOp} {operand : Expr} :
    (unary op operand).Hides name ↔
      op = .call .abs ∧ name ∈ operand.leaves ∨ operand.Hides name := by
  constructor
  · rintro ⟨nodes, hpath, argument, hmem⟩
    cases hpath with
    | unary op h =>
      rcases List.mem_cons.mp hmem with hroot | hbelow
      · exact .inl ⟨(Expr.unary.inj hroot).1.symm, exists_path_iff.mp ⟨_, h⟩⟩
      · exact .inr ⟨_, h, argument, hbelow⟩
  · rintro (⟨rfl, hleaf⟩ | ⟨nodes, hpath, argument, hmem⟩)
    · obtain ⟨nodes, hpath⟩ := exists_path_iff.mpr hleaf
      exact ⟨_, hpath.unary _, operand, List.mem_cons_self⟩
    · exact ⟨_, hpath.unary op, argument, List.mem_cons_of_mem _ hmem⟩

theorem hides_binary_iff {name : String} {op : BinaryOp} {left right : Expr} :
    (binary op left right).Hides name ↔ left.Hides name ∨ right.Hides name := by
  constructor
  · rintro ⟨nodes, hpath, argument, hmem⟩
    cases hpath with
    | left op right h => exact .inl ⟨_, h, argument, List.mem_of_ne_of_mem (by simp) hmem⟩
    | right op left h => exact .inr ⟨_, h, argument, List.mem_of_ne_of_mem (by simp) hmem⟩
  · rintro (⟨nodes, hpath, argument, hmem⟩ | ⟨nodes, hpath, argument, hmem⟩)
    · exact ⟨_, hpath.left op right, argument, List.mem_cons_of_mem _ hmem⟩
    · exact ⟨_, hpath.right op left, argument, List.mem_cons_of_mem _ hmem⟩

instance decidableHides (name : String) : (e : Expr) → Decidable (e.Hides name)
  | number text => isFalse (not_hides_number name text)
  | var other => isFalse (not_hides_var name other)
  | unary _ operand =>
    haveI := decidableHides name operand
    decidable_of_iff _ hides_unary_iff.symm
  | binary _ left right =>
    haveI := decidableHides name left
    haveI := decidableHides name right
    decidable_of_iff _ hides_binary_iff.symm

theorem exists_mem_places_iff {name : String} {e : Expr} :
    (∃ layers, layers ∈ e.places name) ↔ name ∈ e.leaves := by
  rw [← List.length_pos_iff_exists_mem, length_places, List.count_pos_iff]

/-- The layers of a place are the operations on the path to its leaf. -/
theorem hides_iff_mem_places {name : String} {e : Expr} :
    e.Hides name ↔ ∃ layers ∈ e.places name, Layer.call .abs ∈ layers := by
  induction e with
  | number text => simp [places, not_hides_number]
  | var other =>
    have hroot : ∀ layers ∈ (var other).places name, layers = [] := by
      intro layers hmem
      rw [places] at hmem
      split at hmem
      · exact List.mem_singleton.mp hmem
      · cases hmem
    refine iff_of_false (not_hides_var name other) ?_
    rintro ⟨layers, hmem, habs⟩
    rw [hroot layers hmem] at habs
    cases habs
  | unary op operand ih =>
    rw [hides_unary_iff, ih, ← exists_mem_places_iff]
    cases op with
    | negate => simp [places]
    | call f =>
      by_cases hf : f = .abs
      · subst hf
        simpa [places] using fun layers hmem _ ↦ ⟨layers, hmem⟩
      · simp [places, hf, Ne.symm hf]
  | binary op left right ihl ihr =>
    simp [places, hides_binary_iff, ihl, ihr, or_and_right, exists_or]

end Expr

/-! ## Formulas -/

namespace Layer

/-- Absolute values are all that keeps layers from being undone. -/
theorem exists_undoAll_iff {layers : List Layer} {known : Expr} :
    (∃ formula, undoAll layers known = .ok formula) ↔ call .abs ∉ layers := by
  induction layers generalizing known with
  | nil => simp [undoAll]
  | cons layer layers ih =>
    cases hundo : layer.undo known with
    | ok next =>
      have hlayer : call .abs ≠ layer := by
        rintro rfl
        cases hundo
      simp [undoAll_cons_eq_ok_iff, hundo, ih, hlayer]
    | error f =>
      obtain ⟨rfl, -⟩ := (undo_eq_error_iff layer known f).mp hundo
      simp [undoAll_cons_eq_ok_iff, hundo]

end Layer

namespace Equation

/-- One leaf on the two sides carries the name, and no absolute value stands above it. -/
def Isolable (name : String) : Equation → Prop
  | expression _ => False
  | equality left right =>
    (left.leaves ++ right.leaves).count name = 1 ∧ ¬left.Hides name ∧ ¬right.Hides name

instance (name : String) : (q : Equation) → Decidable (q.Isolable name)
  | expression _ => inferInstanceAs (Decidable False)
  | equality left right => inferInstanceAs (Decidable (_ ∧ ¬left.Hides name ∧ ¬right.Hides name))

/-- The isolable variables are the ones that have a formula. -/
theorem exists_rearrange_iff {q : Equation} {name : String} :
    (∃ formula, q.rearrange (.whole name) = .ok formula) ↔ q.Isolable name := by
  cases q with
  | expression e => simp [rearrange, arrange, Isolable, bind, Except.bind]
  | equality left right =>
    rw [Isolable, List.count_append, ← Expr.length_places, ← Expr.length_places,
      Expr.hides_iff_mem_places, Expr.hides_iff_mem_places]
    constructor
    · rintro ⟨formula, hformula⟩
      obtain ⟨layers, ⟨hleft, hright, hundo⟩ | ⟨hleft, hright, hundo⟩⟩ :=
        rearrange_whole_eq_ok_iff.mp hformula
      all_goals
        have habs := Layer.exists_undoAll_iff.mp ⟨formula, hundo⟩
        simp [hleft, hright, habs]
    · rintro ⟨hcount, hleft, hright⟩
      rcases Nat.add_eq_one_iff.mp hcount with ⟨hnone, hone⟩ | ⟨hone, hnone⟩
      all_goals
        obtain ⟨layers, hplace⟩ := List.length_eq_one_iff.mp hone
        rw [List.length_eq_zero_iff] at hnone
      · have habs : Layer.call .abs ∉ layers := fun hmem ↦ hright ⟨layers, by simp [hplace], hmem⟩
        obtain ⟨formula, hundo⟩ := (@Layer.exists_undoAll_iff layers left).mpr habs
        exact ⟨formula, rearrange_whole_eq_ok_iff.mpr ⟨layers, .inr ⟨hnone, hplace, hundo⟩⟩⟩
      · have habs : Layer.call .abs ∉ layers := fun hmem ↦ hleft ⟨layers, by simp [hplace], hmem⟩
        obtain ⟨formula, hundo⟩ := (@Layer.exists_undoAll_iff layers right).mpr habs
        exact ⟨formula, rearrange_whole_eq_ok_iff.mpr ⟨layers, .inl ⟨hplace, hnone, hundo⟩⟩⟩

theorem isolate_eq_ok_iff {q : Equation} {name : String} {r : Relation} :
    q.isolate (.whole name) = .ok r ↔
      ∃ formula, q.rearrange (.whole name) = .ok formula ∧ r = ⟨name, formula.render⟩ := by
  unfold isolate
  cases q.rearrange (.whole name) with
  | ok formula => simp [Except.map, Census.whole, eq_comm]
  | error obstacle => simp [Except.map]

theorem exists_isolate_iff {q : Equation} {name : String} :
    (∃ r, q.isolate (.whole name) = .ok r) ↔ q.Isolable name := by
  rw [← exists_rearrange_iff]
  simp only [isolate_eq_ok_iff]
  constructor
  · rintro ⟨r, formula, hformula, -⟩
    exact ⟨formula, hformula⟩
  · rintro ⟨formula, hformula⟩
    exact ⟨_, formula, hformula, rfl⟩

end Equation

end ClosedForm
