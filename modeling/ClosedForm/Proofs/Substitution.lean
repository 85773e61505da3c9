import ClosedForm.Proofs.Replacement
import Mathlib.Logic.Basic

/-!
# Laws of substitution

Replacing variables and then replacing those of the result comes to replacing each variable once, by
what it has become after both (`replace_replace`), and two replacements lead to the same expression
only if they agree on every variable that stands in it (`replace_eq_replace_iff`). A substitution is
a replacement. So two substitutions can change places if the value of one is adapted, and the only
substitutions that leave an expression as it is are those for variables it does not have and those
of a variable for itself (`substitute_laws`).
-/

namespace ClosedForm.Expr

/-! ## Replacements -/

theorem replace_replace (e : Expr) (values others : String → Expr) :
    (e.replace values).replace others = e.replace fun name ↦ (values name).replace others := by
  induction e with
  | number text | var name => rfl
  | unary op operand ih => rw [replace, replace, replace, ih]
  | binary op left right ihl ihr => rw [replace, replace, replace, ihl, ihr]

theorem replace_var (e : Expr) : e.replace var = e := by
  induction e with
  | number text | var name => rfl
  | unary op operand ih => rw [replace, ih]
  | binary op left right ihl ihr => rw [replace, ihl, ihr]

theorem replace_eq_replace_iff {e : Expr} {values others : String → Expr} :
    e.replace values = e.replace others ↔ ∀ name ∈ e.leaves, values name = others name := by
  induction e with
  | number text => simp [replace, leaves]
  | var name => simp [replace, leaves]
  | unary op operand ih => simp [replace, leaves, ih]
  | binary op left right ihl ihr => simp [replace, leaves, ihl, ihr, or_imp, forall_and]

/-! ## Substitutions -/

theorem substitute_var (name other : String) (value : Expr) :
    (var other).substitute name value = if other = name then value else var other := rfl

theorem replace_substitute (e : Expr) (values : String → Expr) (name : String) (value : Expr) :
    (e.replace values).substitute name value =
      e.replace fun other ↦ (values other).substitute name value := by
  simp only [substitute_eq_replace, replace_replace]

theorem substitute_substitute_eq_replace (e a b : Expr) (x y : String) :
    (e.substitute x a).substitute y b =
      e.replace fun name ↦ ((var name).substitute x a).substitute y b := by
  rw [substitute_eq_replace e, replace_substitute]
  rfl

/-- Substitutions for two variables change places if the later one is made in the value of the
earlier one, too. -/
theorem substitute_substitute {x y : String} {b : Expr} (hne : x ≠ y) (hb : x ∉ b.leaves)
    (e a : Expr) :
    (e.substitute x a).substitute y b = (e.substitute y b).substitute x (a.substitute y b) := by
  rw [substitute_substitute_eq_replace e a b, substitute_substitute_eq_replace e b _ y x]
  apply congrArg (replace · e)
  funext name
  -- A leaf `x` becomes `a` with `b` in it either way, and the `b` at a leaf `y` has no `x` in it.
  by_cases hx : name = x
  · simp [substitute_var, hx, hne]
  · by_cases hy : name = y
    · simp [substitute_var, hy, hne.symm, substitute_of_notMem hb]
    · simp [substitute_var, hx, hy]

theorem substitute_eq_self_iff {e a : Expr} {x : String} :
    e.substitute x a = e ↔ x ∉ e.leaves ∨ a = var x := by
  calc
    e.substitute x a = e ↔
        e.replace (fun name ↦ if name = x then a else var name) = e.replace var := by
      rw [substitute_eq_replace, replace_var]
    _ ↔ ∀ name ∈ e.leaves, (if name = x then a else var name) = var name :=
      replace_eq_replace_iff
    _ ↔ (x ∈ e.leaves → a = var x) := by
      constructor
      · intro h hmem
        simpa using h x hmem
      · intro h name hmem
        by_cases hname : name = x
        · rw [if_pos hname, hname]
          exact h (hname ▸ hmem)
        · rw [if_neg hname]
    _ ↔ x ∉ e.leaves ∨ a = var x := imp_iff_not_or

theorem mentions_substitute (e a : Expr) (x : String) :
    (e.substitute x a).mentions x = (e.mentions x && a.mentions x) := by
  induction e with
  | number text => rfl
  | var name => by_cases hname : name = x <;> simp [substitute_var, mentions, hname]
  | unary op operand ih => exact ih
  | binary op left right ihl ihr =>
    rw [substitute, mentions, ihl, ihr, mentions, Bool.and_or_distrib_right]

theorem mentions_eq_false_iff {e : Expr} {name : String} :
    e.mentions name = false ↔ name ∉ e.leaves := by
  rw [← Bool.not_eq_true, mentions_eq_true_iff]

/-- Substitutions for different variables change places, the value of the first one adapted to the
second one. A substitution without effect is one for a variable that is not mentioned or is put in
its own place. The variables of the result are read off those of the expression and the value. -/
theorem substitute_laws (e a : Expr) (x : String) :
    let names := e.leaves.flatMap fun name ↦ if name = x then a.leaves else [name]
    (∀ y b, x ≠ y → b.mentions x = false →
      (e.substitute x a).substitute y b = (e.substitute y b).substitute x (a.substitute y b)) ∧
    (e.substitute x a = e ↔ e.mentions x = false ∨ a = var x) ∧
    (e.substitute x a).leaves = names ∧ (e.substitute x a).vars = names.eraseDups ∧
    ((e.substitute x a).mentions x = true ↔ e.mentions x = true ∧ a.mentions x = true) := by
  intro names
  have hleaves : (e.substitute x a).leaves = names := leaves_substitute e x a
  refine ⟨fun y b hne hb ↦ ?_, ?_, hleaves, congrArg List.eraseDups hleaves, ?_⟩
  · exact substitute_substitute hne (mentions_eq_false_iff.mp hb) e a
  · rw [mentions_eq_false_iff]
    exact substitute_eq_self_iff
  · rw [mentions_substitute, Bool.and_eq_true]

/-- In `y - sin(x * z)` the variable `x` is replaced by `x + y` and `y` by `2^z`, in both orders. -/
theorem substitute_laws_of_sine :
    let e := sub (var "y") (call .sin (mul (var "x") (var "z")))
    let a := add (var "x") (var "y")
    let b := pow (number "2") (var "z")
    "x" ≠ "y" ∧ b.mentions "x" = false ∧
      (e.substitute "x" a).substitute "y" b =
        (e.substitute "y" b).substitute "x" (add (var "x") b) ∧
      e.substitute "x" a ≠ e ∧ (e.substitute "x" a).leaves = ["y", "x", "y", "z"] ∧
      (e.substitute "x" a).vars = ["y", "x", "z"] ∧ (e.substitute "x" a).mentions "x" = true := by
  intro e a b
  have hne : "x" ≠ "y" := by decide
  have hb : b.mentions "x" = false := by decide
  obtain ⟨hswap, hself, hleaves, hvars, hmentions⟩ := substitute_laws e a "x"
  exact ⟨hne, hb, hswap "y" b hne hb, mt hself.mp (by decide), hleaves, hvars.trans (by decide),
    hmentions.mpr (by decide)⟩

end ClosedForm.Expr
