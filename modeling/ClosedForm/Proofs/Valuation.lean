import ClosedForm.Evaluation
import ClosedForm.Proofs.Substitution
import Mathlib.Logic.Function.Basic

/-!
# The value of a substitution

An expression that is put in the place of a variable is evaluated there, over again at each leaf. It
is the same to give the variable the outcome of the expression beforehand, whatever the effects are
(`denote_substitute`). If operations never fail, the leaves alone decide about failure, and the
leftmost one that fails decides how (`failure?_denote`). So an expression with a value passes the
value on, and one without a value makes each leaf fail that it stands for (`evaluate_substitute`).
None of this depends on what numbers and operations are, so evaluation is considered over any
`Arithmetic`, of which floats are one.
-/

namespace ClosedForm

universe u v

/-! ## Assignments -/

section

variable {m : Type u → Type v} {α : Type u}

/-- Gives one variable another outcome. -/
def Interpretation.assign (meaning : Interpretation m α) (name : String) (outcome : m α) :
    Interpretation m α :=
  { meaning with var := Function.update meaning.var name outcome }

theorem Expr.denote_replace [Monad m] (meaning : Interpretation m α) (e : Expr)
    (values : String → Expr) :
    (e.replace values).denote meaning =
      e.denote { meaning with var := fun name ↦ (values name).denote meaning } := by
  induction e with
  | number text | var name => rfl
  | unary op operand ih => simp only [replace, denote, ih]
  | binary op left right ihl ihr => simp only [replace, denote, ihl, ihr]

theorem Expr.denote_substitute [Monad m] (meaning : Interpretation m α) (e : Expr) (name : String)
    (value : Expr) :
    (e.substitute name value).denote meaning =
      e.denote (meaning.assign name (value.denote meaning)) := by
  have hvar : (fun other ↦ (if other = name then value else var other).denote meaning) =
      Function.update meaning.var name (value.denote meaning) := by
    funext other
    rw [apply_ite (denote meaning), Function.update_apply]
    rfl
  rw [substitute_eq_replace, denote_replace, hvar]
  rfl

end

/-! ## Failures -/

/-- The leaves of both kinds from left to right. -/
def Expr.fringe : Expr → List Expr
  | number text => [number text]
  | var name => [var name]
  | unary _ operand => operand.fringe
  | binary _ left right => left.fringe ++ right.fringe

theorem Expr.var_mem_fringe_iff {e : Expr} {name : String} :
    var name ∈ e.fringe ↔ name ∈ e.leaves := by
  induction e with
  | number text | var other => simp [fringe, leaves]
  | unary op operand ih => exact ih
  | binary op left right ihl ihr => simp [fringe, leaves, ihl, ihr]

section

variable {ε : Type v} {α β : Type u}

def failure? : Except ε α → Option ε
  | .ok _ => none
  | .error fault => some fault

theorem failure?_eq_some_iff {outcome : Except ε α} {fault : ε} :
    failure? outcome = some fault ↔ outcome = .error fault := by
  cases outcome <;> simp [failure?]

theorem failure?_bind {f : α → Except ε β} (h : ∀ x, failure? (f x) = none)
    (outcome : Except ε α) : failure? (outcome >>= f) = failure? outcome := by
  cases outcome with
  | ok x => exact h x
  | error fault => rfl

theorem failure?_bind_bind {f : α → α → Except ε β} (h : ∀ x y, failure? (f x y) = none)
    (first second : Except ε α) :
    failure? (first >>= fun x ↦ second >>= f x) = (failure? first).or (failure? second) := by
  cases first with
  | ok x => exact failure?_bind (h x) second
  | error fault => rfl

namespace Interpretation

variable {meaning : Interpretation (Except ε) α}

/-- Operations always have a result. -/
structure IsTotal (meaning : Interpretation (Except ε) α) : Prop where
  unary : ∀ op x, failure? (meaning.unary op x) = none
  binary : ∀ op x y, failure? (meaning.binary op x y) = none

theorem IsTotal.assign (h : meaning.IsTotal) (name : String) (outcome : Except ε α) :
    (meaning.assign name outcome).IsTotal :=
  ⟨h.unary, h.binary⟩

/-- How a leaf fails. -/
def failureAt? (meaning : Interpretation (Except ε) α) : Expr → Option ε
  | .number text => failure? (meaning.number text)
  | .var name => failure? (meaning.var name)
  | .unary _ _ | .binary _ _ _ => none

theorem failureAt?_assign_error (meaning : Interpretation (Except ε) α) (name : String)
    (fault : ε) (leaf : Expr) :
    (meaning.assign name (.error fault)).failureAt? leaf =
      if leaf = .var name then some fault else meaning.failureAt? leaf := by
  cases leaf with
  | number text | unary op operand | binary op left right => simp [failureAt?, assign]
  | var other =>
    by_cases hother : other = name
    · subst hother
      simp [failureAt?, assign, failure?]
    · simp [failureAt?, assign, hother]

/-- The leftmost leaf that fails decides how the expression fails. -/
theorem IsTotal.failure?_denote (h : meaning.IsTotal) (e : Expr) :
    failure? (e.denote meaning) = e.fringe.findSome? meaning.failureAt? := by
  induction e with
  | number text | var name => exact List.findSome?_singleton.symm
  | unary op operand ih =>
    calc
      failure? ((Expr.unary op operand).denote meaning) = failure? (operand.denote meaning) :=
        failure?_bind (h.unary op) _
      _ = operand.fringe.findSome? meaning.failureAt? := ih
  | binary op left right ihl ihr =>
    calc
      failure? ((Expr.binary op left right).denote meaning) =
          (failure? (left.denote meaning)).or (failure? (right.denote meaning)) :=
        failure?_bind_bind (h.binary op) _ _
      _ = (left.fringe ++ right.fringe).findSome? meaning.failureAt? := by
        rw [ihl, ihr, List.findSome?_append]

end Interpretation

end

/-! ## Arithmetics -/

/-- What numbers and operations are. Texts may have no value, but operations always have one. -/
structure Arithmetic (α : Type u) where
  read? : String → Option α
  unary : UnaryOp → α → α
  binary : BinaryOp → α → α → α

namespace Arithmetic

def floats : Arithmetic Float where
  read? := Decimal.readFloat?
  unary := UnaryOp.apply
  binary := BinaryOp.apply

variable {α : Type u} (arithmetic : Arithmetic α) (lookup : String → Option α)

def interpretation : Interpretation (Except EvalError) α where
  number text :=
    match arithmetic.read? text with
    | some x => .ok x
    | none => .error (.invalidNumber text)
  var name :=
    match lookup name with
    | some x => .ok x
    | none => .error (.unknownVariable name)
  unary op x := .ok (arithmetic.unary op x)
  binary op x y := .ok (arithmetic.binary op x y)

/-- The value of an expression, given the values of the variables. -/
def evaluate (e : Expr) : Except EvalError α :=
  e.denote (arithmetic.interpretation lookup)

/-- Why a leaf has no value. -/
def fault? : Expr → Option EvalError
  | .number text => if (arithmetic.read? text).isNone then some (.invalidNumber text) else none
  | .var name => if (lookup name).isNone then some (.unknownVariable name) else none
  | .unary _ _ | .binary _ _ _ => none

theorem isTotal_interpretation : (arithmetic.interpretation lookup).IsTotal :=
  ⟨fun _ _ ↦ rfl, fun _ _ _ ↦ rfl⟩

theorem failureAt?_interpretation (leaf : Expr) :
    (arithmetic.interpretation lookup).failureAt? leaf = arithmetic.fault? lookup leaf := by
  cases leaf with
  | number text =>
    cases hread : arithmetic.read? text <;>
      simp [Interpretation.failureAt?, interpretation, fault?, failure?, hread]
  | var name =>
    cases hvalue : lookup name <;>
      simp [Interpretation.failureAt?, interpretation, fault?, failure?, hvalue]
  | unary op operand | binary op left right => rfl

theorem assign_interpretation (name : String) (x : α) :
    (arithmetic.interpretation lookup).assign name (.ok x) =
      arithmetic.interpretation (Function.update lookup name (some x)) := by
  have hvar : Function.update (arithmetic.interpretation lookup).var name (.ok x) =
      (arithmetic.interpretation (Function.update lookup name (some x))).var := by
    funext other
    by_cases hother : other = name
    · subst hother
      simp [interpretation]
    · simp [interpretation, hother]
  rw [Interpretation.assign, hvar]
  rfl

variable {arithmetic lookup} {value : Expr} {fault : EvalError}

/-- A value is passed on by way of the variable. -/
theorem evaluate_substitute_of_ok {x : α} (h : arithmetic.evaluate lookup value = .ok x) (e : Expr)
    (name : String) :
    arithmetic.evaluate lookup (e.substitute name value) =
      arithmetic.evaluate (Function.update lookup name (some x)) e := by
  calc
    arithmetic.evaluate lookup (e.substitute name value) =
        e.denote ((arithmetic.interpretation lookup).assign name
          (arithmetic.evaluate lookup value)) := Expr.denote_substitute _ _ _ _
    _ = arithmetic.evaluate (Function.update lookup name (some x)) e := by
      rw [h, assign_interpretation, evaluate]

/-- A failure is passed on to all leaves of the variable. -/
theorem failure?_evaluate_substitute (h : arithmetic.evaluate lookup value = .error fault)
    (e : Expr) (name : String) :
    failure? (arithmetic.evaluate lookup (e.substitute name value)) =
      e.fringe.findSome? fun leaf ↦
        if leaf = .var name then some fault else arithmetic.fault? lookup leaf := by
  have htotal := (arithmetic.isTotal_interpretation lookup).assign name (.error fault)
  have hleaf : ((arithmetic.interpretation lookup).assign name (.error fault)).failureAt? =
      fun leaf ↦ if leaf = .var name then some fault else arithmetic.fault? lookup leaf := by
    funext leaf
    rw [Interpretation.failureAt?_assign_error, failureAt?_interpretation]
  rw [← hleaf, ← htotal.failure?_denote, ← h, evaluate, Expr.denote_substitute]
  rfl

theorem evaluate_substitute_eq_ok_iff (h : arithmetic.evaluate lookup value = .error fault)
    {e : Expr} {name : String} {x : α} :
    arithmetic.evaluate lookup (e.substitute name value) = .ok x ↔
      name ∉ e.leaves ∧ arithmetic.evaluate lookup e = .ok x := by
  by_cases hname : name ∈ e.leaves
  -- A leaf of the variable is among the leaves that fail.
  · have hfails := failure?_evaluate_substitute h e name
    have hsome : (e.fringe.findSome? fun leaf ↦
        if leaf = .var name then some fault else arithmetic.fault? lookup leaf).isSome = true := by
      apply List.findSome?_isSome_iff.mpr
      exact ⟨.var name, Expr.var_mem_fringe_iff.mpr hname, by simp⟩
    have hfalse : arithmetic.evaluate lookup (e.substitute name value) ≠ .ok x := by
      intro hok
      rw [← hfails, hok] at hsome
      cases hsome
    simp [hname, hfalse]
  · simp [hname, Expr.substitute_of_notMem hname]

end Arithmetic

theorem Arithmetic.interpretation_floats (lookup : String → Option Float) :
    floats.interpretation lookup = Interpretation.floats lookup := by
  have hnumber : (floats.interpretation lookup).number = (Interpretation.floats lookup).number := by
    funext text
    simp only [interpretation, floats, Interpretation.floats]
    cases Decimal.readFloat? text <;> rfl
  have hvar : (floats.interpretation lookup).var = (Interpretation.floats lookup).var := by
    funext name
    simp only [interpretation, Interpretation.floats]
    cases lookup name <;> rfl
  exact congrArg₂ (Interpretation.mk · · _ _) hnumber hvar

theorem Expr.evaluate_eq_floats (lookup : String → Option Float) (e : Expr) :
    e.evaluate lookup = Arithmetic.floats.evaluate lookup e := by
  rw [Arithmetic.evaluate, Arithmetic.interpretation_floats, evaluate]

/-- An expression in the place of a variable is worth as much as the variable with its value. If it
has none, then the whole has a value where the variable is not mentioned, and otherwise it fails as
the leftmost failing leaf does, the leaves of the variable failing as the expression does. Floats
are one of the arithmetics of which this is true. -/
theorem evaluate_substitute :
    (∀ lookup e, Expr.evaluate lookup e = Arithmetic.floats.evaluate lookup e) ∧
    ∀ {α : Type u} (arithmetic : Arithmetic α) (lookup : String → Option α) (e value : Expr)
        (name : String),
      let result := arithmetic.evaluate lookup (e.substitute name value)
      (∀ x, arithmetic.evaluate lookup value = .ok x →
        result = arithmetic.evaluate (Function.update lookup name (some x)) e) ∧
      ∀ fault, arithmetic.evaluate lookup value = .error fault →
        let fault? (leaf : Expr) :=
          if leaf = .var name then some fault else arithmetic.fault? lookup leaf
        (∀ x, result = .ok x ↔ e.mentions name = false ∧ arithmetic.evaluate lookup e = .ok x) ∧
          ∀ other, result = .error other ↔ e.fringe.findSome? fault? = some other := by
  refine ⟨Expr.evaluate_eq_floats, ?_⟩
  intro α arithmetic lookup e value name result
  refine ⟨fun x hx ↦ Arithmetic.evaluate_substitute_of_ok hx e name, ?_⟩
  intro fault hfault fault?
  constructor
  · intro x
    rw [Expr.mentions_eq_false_iff]
    exact Arithmetic.evaluate_substitute_eq_ok_iff hfault
  · intro other
    rw [← failure?_eq_some_iff, Arithmetic.failure?_evaluate_substitute hfault]

/-- With a value for `y` alone, `y * y` may be put in the place of `x` or given to it in
`1.5 / x - z`, and `y + w` makes `x` fail before `z` does. -/
theorem evaluate_substitute_of_quotient :
    let lookup (name : String) : Option Float := if name = "y" then some 3 else none
    let e := Expr.sub (.div (.number "1.5") (.var "x")) (.var "z")
    let square := Expr.mul (.var "y") (.var "y")
    let sum := Expr.add (.var "y") (.var "w")
    square.evaluate lookup = .ok (3 * 3) ∧
      (e.substitute "x" square).evaluate lookup =
        e.evaluate (Function.update lookup "x" (some (3 * 3))) ∧
      sum.evaluate lookup = .error (.unknownVariable "w") ∧
      (∀ x, (e.substitute "x" sum).evaluate lookup ≠ .ok x) ∧
      (e.substitute "x" sum).evaluate lookup = .error (.unknownVariable "w") := by
  intro lookup e square sum
  obtain ⟨hfloats, hsubstitute⟩ := evaluate_substitute
  have hsquare : square.evaluate lookup = .ok (3 * 3) := rfl
  have hsum : sum.evaluate lookup = .error (.unknownVariable "w") := rfl
  simp only [hfloats] at hsquare hsum ⊢
  have hgiven := (hsubstitute .floats lookup e square "x").1 _ hsquare
  obtain ⟨hok, herror⟩ := (hsubstitute .floats lookup e sum "x").2 _ hsum
  refine ⟨hsquare, hgiven, hsum, fun x hx ↦ ?_, (herror _).mpr (by decide +kernel)⟩
  exact absurd ((hok x).mp hx).1 (by decide)

end ClosedForm
