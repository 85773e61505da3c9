import ClosedForm.Proofs.Valuation

/-!
# The leftmost fault

Evaluation comes to a value, or to the fault of the leftmost leaf that has one
(`evaluate_reports_leftmost_fault`). Leaves behind that one are not looked at, nor are variables
that do not appear, and the operations have no part in it. So nothing here depends on what numbers
are, as long as operations on them always have a result.
-/

namespace ClosedForm

universe u v

/-- The outcome depends on the variables that appear and on no others. -/
theorem Expr.denote_congr {m : Type u → Type v} [Monad m] {α : Type u}
    (meaning : Interpretation m α) {other : String → m α} {e : Expr}
    (h : ∀ name ∈ e.leaves, other name = meaning.var name) :
    e.denote { meaning with var := other } = e.denote meaning := by
  induction e with
  | number text => rfl
  | var name => exact h name List.mem_cons_self
  | unary op operand ih => simp only [denote, ih h]
  | binary op left right ihl ihr =>
    have hleft := ihl fun name hname ↦ h name (List.mem_append_left _ hname)
    have hright := ihr fun name hname ↦ h name (List.mem_append_right _ hname)
    simp only [denote, hleft, hright]

theorem failure?_eq_none_iff {ε : Type v} {α : Type u} {outcome : Except ε α} :
    failure? outcome = none ↔ ∃ x, outcome = .ok x := by
  cases outcome <;> simp [failure?]

namespace Arithmetic

variable {α : Type u} (arithmetic : Arithmetic α) (lookup : String → Option α) (e : Expr)

theorem failure?_evaluate :
    failure? (arithmetic.evaluate lookup e) = e.fringe.findSome? (arithmetic.fault? lookup) := by
  have hleaf : (arithmetic.interpretation lookup).failureAt? = arithmetic.fault? lookup := by
    funext leaf
    exact arithmetic.failureAt?_interpretation lookup leaf
  rw [evaluate, (arithmetic.isTotal_interpretation lookup).failure?_denote, hleaf]

theorem exists_evaluate_eq_ok_iff :
    (∃ x, arithmetic.evaluate lookup e = .ok x) ↔
      ∀ leaf ∈ e.fringe, arithmetic.fault? lookup leaf = none := by
  rw [← failure?_eq_none_iff, failure?_evaluate, List.findSome?_eq_none_iff]

theorem evaluate_eq_error_iff {fault : EvalError} :
    arithmetic.evaluate lookup e = .error fault ↔
      ∃ before leaf after, e.fringe = before ++ leaf :: after ∧
        arithmetic.fault? lookup leaf = some fault ∧
        ∀ earlier ∈ before, arithmetic.fault? lookup earlier = none := by
  rw [← failure?_eq_some_iff, failure?_evaluate, List.findSome?_eq_some_iff]

theorem fault?_number_eq_none_iff {text : String} :
    arithmetic.fault? lookup (.number text) = none ↔ (arithmetic.read? text).isSome = true := by
  cases h : arithmetic.read? text <;> simp [fault?, h]

theorem fault?_var_eq_none_iff {name : String} :
    arithmetic.fault? lookup (.var name) = none ↔ (lookup name).isSome = true := by
  cases h : lookup name <;> simp [fault?, h]

/-- No leaf has a fault if all numbers can be read and all variables have values. -/
theorem forall_fault?_eq_none_iff :
    (∀ leaf ∈ e.fringe, arithmetic.fault? lookup leaf = none) ↔
      (∀ text, .number text ∈ e.fringe → (arithmetic.read? text).isSome = true) ∧
        ∀ name ∈ e.leaves, (lookup name).isSome = true := by
  simp only [← arithmetic.fault?_number_eq_none_iff lookup,
    ← arithmetic.fault?_var_eq_none_iff lookup, ← Expr.var_mem_fringe_iff]
  constructor
  · intro h
    exact ⟨fun text ↦ h (.number text), fun name ↦ h (.var name)⟩
  · rintro ⟨hnumbers, hvars⟩ leaf hleaf
    cases leaf with
    | number text => exact hnumbers text hleaf
    | var name => exact hvars name hleaf
    | unary op operand | binary op left right => rfl

variable {lookup e}

theorem evaluate_congr {other : String → Option α}
    (h : ∀ name ∈ e.leaves, other name = lookup name) :
    arithmetic.evaluate other e = arithmetic.evaluate lookup e := by
  have hvar : ∀ name ∈ e.leaves, (arithmetic.interpretation other).var name =
      (arithmetic.interpretation lookup).var name := by
    intro name hname
    simp only [interpretation, h name hname]
  exact Expr.denote_congr (arithmetic.interpretation lookup) hvar

end Arithmetic

/-- Evaluation has a value if all numbers can be read and all variables have values. Otherwise it
fails at the leftmost leaf for which this is not so, with the fault of that leaf, whatever leaves
follow. The values of variables that do not appear make no difference. -/
theorem evaluate_reports_leftmost_fault :
    (∀ lookup e, Expr.evaluate lookup e = Arithmetic.floats.evaluate lookup e) ∧
    ∀ {α : Type u} (arithmetic : Arithmetic α) (lookup : String → Option α) (e : Expr),
      ((∃ x, arithmetic.evaluate lookup e = .ok x) ↔
        (∀ text, .number text ∈ e.fringe → (arithmetic.read? text).isSome = true) ∧
          ∀ name ∈ e.leaves, (lookup name).isSome = true) ∧
      (∀ fault, arithmetic.evaluate lookup e = .error fault ↔
        ∃ before leaf after, e.fringe = before ++ leaf :: after ∧
          arithmetic.fault? lookup leaf = some fault ∧
          ∀ earlier ∈ before, arithmetic.fault? lookup earlier = none) ∧
      ∀ other : String → Option α, (∀ name ∈ e.vars, other name = lookup name) →
        arithmetic.evaluate other e = arithmetic.evaluate lookup e := by
  refine ⟨Expr.evaluate_eq_floats, fun arithmetic lookup e ↦ ⟨?_, ?_, ?_⟩⟩
  · rw [arithmetic.exists_evaluate_eq_ok_iff, arithmetic.forall_fault?_eq_none_iff]
  · intro fault
    exact arithmetic.evaluate_eq_error_iff lookup e
  · intro other h
    exact arithmetic.evaluate_congr fun name hname ↦ h name (List.mem_eraseDups.mpr hname)

/-- With a value for `x` alone, `x * 1_0 + y` fails at the number, and also with a value for `z`. -/
theorem evaluate_reports_leftmost_fault_of_sum :
    let lookup (name : String) : Option Float := if name = "x" then some 2 else none
    let other (name : String) : Option Float := if name = "x" then some 2 else
      if name = "z" then some 3 else none
    let e := Expr.add (.mul (.var "x") (.number "1_0")) (.var "y")
    e.evaluate lookup = .error (.invalidNumber "1_0") ∧
      (∀ name ∈ e.vars, other name = lookup name) ∧
      e.evaluate other = e.evaluate lookup := by
  intro lookup other e
  obtain ⟨hfloats, hleftmost⟩ := evaluate_reports_leftmost_fault
  obtain ⟨-, hfault, hcongr⟩ := hleftmost .floats lookup e
  have hvars : ∀ name ∈ e.vars, other name = lookup name := by
    intro name hname
    have hnames : e.vars = ["x", "y"] := by decide +kernel
    rw [hnames] at hname
    rcases List.mem_cons.mp hname with rfl | hname
    · rfl
    · rw [List.mem_singleton.mp hname]
      rfl
  simp only [hfloats]
  refine ⟨(hfault _).mpr ⟨[.var "x"], .number "1_0", [.var "y"], rfl, ?_, ?_⟩, hvars, ?_⟩
  · decide +kernel
  · decide +kernel
  · exact hcongr other hvars

end ClosedForm
