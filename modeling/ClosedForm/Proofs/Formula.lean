import ClosedForm.Proofs.Conservation

/-!
# Equations between a variable and its formula

Undoing a layer neither loses nor repeats a leaf, and it puts no absolute value above one. So an
equation between a variable and its formula has the leaves of the equation it comes from, with the
same ones below absolute values, and can be solved for the same variables
(`rearrange_formula_iff`).
-/

namespace ClosedForm

namespace Layer

/-! ## Absolute values -/

/-- An absolute value stands above a leaf of the variable in the other operand. -/
def Hides (name : String) : Layer → Prop
  | negation | call _ => False
  | leftOf _ right => right.Hides name
  | rightOf left _ => left.Hides name

theorem hides_plug_iff {name : String} {layer : Layer} (h : layer ≠ call .abs) (e : Expr) :
    (layer.plug e).Hides name ↔ e.Hides name ∨ layer.Hides name := by
  cases layer with
  | negation => simp [plug, Expr.hides_unary_iff, Hides]
  | call f =>
    have hf : f ≠ .abs := fun habs ↦ h (congrArg call habs)
    simp [plug, Expr.hides_unary_iff, Hides, hf]
  | leftOf op right => exact Expr.hides_binary_iff
  | rightOf left op => exact Expr.hides_binary_iff.trans or_comm

theorem hides_solveLeft_iff {name : String} (op : BinaryOp) (known right : Expr) :
    (solveLeft op known right).Hides name ↔ known.Hides name ∨ right.Hides name := by
  cases op with
  | plus | minus | times | divide => exact Expr.hides_binary_iff
  | power => simp [solveLeft, Expr.hides_binary_iff, Expr.not_hides_number]

theorem hides_solveRight_iff {name : String} (op : BinaryOp) (known left : Expr) :
    (solveRight op known left).Hides name ↔ known.Hides name ∨ left.Hides name := by
  cases op with
  | plus | times => exact Expr.hides_binary_iff
  | minus | divide => exact Expr.hides_binary_iff.trans or_comm
  | power => simp [solveRight, Expr.hides_binary_iff, Expr.hides_unary_iff]

theorem inverse?_ne_abs {f g : Fn} (h : f.inverse? = some g) : g ≠ .abs := by
  cases f <;> cases h <;> simp

theorem hides_undo_iff {name : String} {layer : Layer} {known next : Expr}
    (h : layer.undo known = .ok next) :
    next.Hides name ↔ known.Hides name ∨ layer.Hides name := by
  cases layer with
  | negation =>
    obtain rfl := Except.ok.inj h
    simp [Expr.hides_unary_iff, Hides]
  | call f =>
    obtain ⟨g, hinverse, rfl⟩ := undo_call_eq_ok_iff.mp h
    simp [Expr.hides_unary_iff, Hides, inverse?_ne_abs hinverse]
  | leftOf op right =>
    obtain rfl := Except.ok.inj h
    exact hides_solveLeft_iff op known right
  | rightOf left op =>
    obtain rfl := Except.ok.inj h
    exact hides_solveRight_iff op known left

/-- The two sides keep their leaves below absolute values while layers are undone. -/
theorem hides_undoAll_iff {layers : List Layer} {known formula : Expr}
    (h : undoAll layers known = .ok formula) (e : Expr) (name : String) :
    e.Hides name ∨ formula.Hides name ↔ (plugAll layers e).Hides name ∨ known.Hides name := by
  induction layers generalizing known with
  | nil =>
    obtain rfl := Except.ok.inj h
    rfl
  | cons layer layers ih =>
    obtain ⟨next, hnext, hundo⟩ := undoAll_cons_eq_ok_iff.mp h
    have hlayer : layer ≠ call .abs := by
      rintro rfl
      cases hnext
    calc
      _ ↔ (plugAll layers e).Hides name ∨ next.Hides name := ih hundo
      _ ↔ (plugAll layers e).Hides name ∨ known.Hides name ∨ layer.Hides name := by
        rw [hides_undo_iff hnext]
      _ ↔ ((plugAll layers e).Hides name ∨ layer.Hides name) ∨ known.Hides name := by
        rw [or_comm (a := known.Hides name), or_assoc]
      _ ↔ (layer.plug (plugAll layers e)).Hides name ∨ known.Hides name := by
        rw [hides_plug_iff hlayer]

end Layer

namespace Equation

variable {left right formula : Expr} {name : String}

theorem hides_rearrange_iff (h : (equality left right).rearrange (.whole name) = .ok formula)
    (other : String) : formula.Hides other ↔ left.Hides other ∨ right.Hides other := by
  obtain ⟨layers, ⟨hplace, -, hundo⟩ | ⟨-, hplace, hundo⟩⟩ := rearrange_whole_eq_ok_iff.mp h
  all_goals
    have hhides := Layer.hides_undoAll_iff hundo (.var name) other
    rw [Expr.plugAll_of_places hplace, or_iff_right (Expr.not_hides_var other name)] at hhides
  · exact hhides
  · exact hhides.trans or_comm

/-- An equation and the one between a variable and its formula can be solved for the same
variables. -/
theorem isolable_formula_iff (h : (equality left right).rearrange (.whole name) = .ok formula)
    (other : String) :
    (equality (.var name) formula).Isolable other ↔ (equality left right).Isolable other := by
  have hcount : ((Expr.var name).leaves ++ formula.leaves).count other =
      (left.leaves ++ right.leaves).count other :=
    (Multiset.coe_eq_coe.mp (leaves_rearrange h)).count_eq other
  simp only [Isolable, hcount, Expr.not_hides_var, hides_rearrange_iff h, not_or, not_false_iff,
    true_and]

theorem rearrange_formula (h : (equality left right).rearrange (.whole name) = .ok formula) :
    (equality (.var name) formula).rearrange (.whole name) = .ok formula := by
  have hfree : name ∉ formula.leaves := notMem_leaves_of_rearrange h
  have hplace : (Expr.var name).places name = [[]] := if_pos rfl
  exact rearrange_whole_eq_ok_iff.mpr
    ⟨[], .inl ⟨hplace, Expr.places_eq_nil_iff.mpr hfree, rfl⟩⟩

/-- Rearranging an equation loses no solution: what can be isolated in the equation can be isolated
in the one between a variable and its formula, where the formula is found again. -/
theorem rearrange_formula_iff (h : (equality left right).rearrange (.whole name) = .ok formula) :
    (∀ other, (∃ e, (equality left right).rearrange (.whole other) = .ok e) ↔
        ∃ e, (equality (.var name) formula).rearrange (.whole other) = .ok e) ∧
      (equality (.var name) formula).rearrange (.whole name) = .ok formula := by
  refine ⟨fun other ↦ ?_, rearrange_formula h⟩
  rw [exists_rearrange_iff, exists_rearrange_iff, isolable_formula_iff h]

/-- From `y = abs(a) + 3^(2 * sin(x))` one gets to `x = asin((log(y - abs(a)) / log(3)) / 2)` and
back to `y`; neither gives `a`. -/
theorem rearrange_formula_of_exponent :
    let left := Expr.var "y"
    let power := Expr.pow (.number "3") (.mul (.number "2") (.call .sin (.var "x")))
    let right := Expr.add (.call .abs (.var "a")) power
    let logarithm := Expr.call .log (.sub (.var "y") (.call .abs (.var "a")))
    let formula := Expr.call .asin (.div (.div logarithm (.call .log (.number "3"))) (.number "2"))
    let solved := equality (.var "x") formula
    (equality left right).rearrange (.whole "x") = .ok formula ∧
      (∀ other, (∃ e, (equality left right).rearrange (.whole other) = .ok e) ↔
        ∃ e, solved.rearrange (.whole other) = .ok e) ∧
      solved.rearrange (.whole "x") = .ok formula ∧
      solved.rearrange (.whole "a") = .error (.notInvertible .abs) := by
  intro left power right logarithm formula solved
  have hformula : (equality left right).rearrange (.whole "x") = .ok formula := rfl
  obtain ⟨hsolvable, hagain⟩ := rearrange_formula_iff hformula
  exact ⟨hformula, hsolvable, hagain, rfl⟩

end Equation

end ClosedForm
