import ClosedForm.Evaluation
import ClosedForm.Proofs.Places
import Mathlib.Analysis.SpecialFunctions.Pow.Real
import Mathlib.Analysis.SpecialFunctions.Trigonometric.Arctan

/-!
# Isolation in exact arithmetic

Expressions take values in a field, where a quotient by zero has no value. What the field does not
fix, the reading of numbers, the powers and the named functions, is left open and may be undefined
anywhere.

Undoing sums, differences, products, quotients and negations is an equivalence wherever both sides
have values, so the formula for a variable under such layers decides the equation
(`eq_iff_eq_formula`). For the other layers the laws of `Convention.Invertible` give one direction:
a formula put in the place of its variable satisfies the equation (`eq_of_substitute_formula`).
-/

namespace ClosedForm

universe u

/-- What a field leaves open about the meaning of expressions. -/
structure Convention (K : Type u) where
  number : String → Option K
  power : K → K → Option K
  apply : Fn → K → Option K

variable {K : Type u} [Field K]

/-- The laws by which layers are undone. Each holds wherever its left side has a value. -/
structure Convention.Invertible (convention : Convention K) : Prop where
  one : convention.number "1" = some 1
  sin_asin {y z w : K} :
    convention.apply .asin y = some z → convention.apply .sin z = some w → w = y
  cos_acos {y z w : K} :
    convention.apply .acos y = some z → convention.apply .cos z = some w → w = y
  tan_atan {y z w : K} :
    convention.apply .atan y = some z → convention.apply .tan z = some w → w = y
  log_exp {y z w : K} :
    convention.apply .exp y = some z → convention.apply .log z = some w → w = y
  /-- The power of a root. -/
  power_root {y c z w : K} : c ≠ 0 → convention.power y (1 / c) = some z →
    convention.power z c = some w → w = y
  /-- The power to a quotient of logarithms. -/
  power_log {b y p q w : K} : convention.apply .log y = some p → convention.apply .log b = some q →
    q ≠ 0 → convention.power b (p / q) = some w → w = y

theorem Convention.Invertible.apply_inverse {convention : Convention K}
    (laws : convention.Invertible) {f g : Fn} {y z w : K} (hf : f ∈ Fn.writable)
    (hg : f.inverse? = some g) (hz : convention.apply g y = some z)
    (hw : convention.apply f z = some w) : w = y := by
  cases f with
  | sin =>
    obtain rfl := Option.some.inj hg
    exact laws.sin_asin hz hw
  | cos =>
    obtain rfl := Option.some.inj hg
    exact laws.cos_acos hz hw
  | tan =>
    obtain rfl := Option.some.inj hg
    exact laws.tan_atan hz hw
  | log =>
    obtain rfl := Option.some.inj hg
    exact laws.log_exp hz hw
  | abs => cases hg
  | asin | acos | atan | exp => simp [Fn.writable] at hf

/-- The real functions where they are defined: logarithms and powers of positive numbers only. -/
noncomputable def Convention.real : Convention ℝ where
  number text := (Decimal.ofChars? text.toList).map fun d ↦ d.digits * 10 ^ d.exponent
  power x y := if 0 < x then some (x ^ y) else none
  apply
    | .sin, x => some (Real.sin x)
    | .cos, x => some (Real.cos x)
    | .tan, x => if Real.cos x = 0 then none else some (Real.tan x)
    | .log, x => if 0 < x then some (Real.log x) else none
    | .abs, x => some |x|
    | .asin, x => if -1 ≤ x ∧ x ≤ 1 then some (Real.arcsin x) else none
    | .acos, x => if -1 ≤ x ∧ x ≤ 1 then some (Real.arccos x) else none
    | .atan, x => some (Real.arctan x)
    | .exp, x => some (Real.exp x)

namespace Convention

theorem real_number {text : String} (digits : ℕ)
    (h : Decimal.ofChars? text.toList = some ⟨digits, 0⟩) :
    real.number text = some (digits : ℝ) := by
  simp [real, h]

theorem real_invertible : real.Invertible where
  one := by
    rw [real_number 1 (by decide +kernel), Nat.cast_one]
  sin_asin {y z w} hz hw := by
    obtain ⟨⟨hlow, hhigh⟩, hz⟩ := Option.ite_none_right_eq_some.mp hz
    obtain rfl := Option.some.inj hz
    obtain rfl := Option.some.inj hw
    exact Real.sin_arcsin hlow hhigh
  cos_acos {y z w} hz hw := by
    obtain ⟨⟨hlow, hhigh⟩, hz⟩ := Option.ite_none_right_eq_some.mp hz
    obtain rfl := Option.some.inj hz
    obtain rfl := Option.some.inj hw
    exact Real.cos_arccos hlow hhigh
  tan_atan {y z w} hz hw := by
    obtain rfl := Option.some.inj hz
    obtain ⟨-, hw⟩ := Option.ite_none_left_eq_some.mp hw
    obtain rfl := Option.some.inj hw
    exact Real.tan_arctan y
  log_exp {y z w} hz hw := by
    obtain rfl := Option.some.inj hz
    obtain ⟨-, hw⟩ := Option.ite_none_right_eq_some.mp hw
    obtain rfl := Option.some.inj hw
    exact Real.log_exp y
  power_root {y c z w} hc hz hw := by
    obtain ⟨hy, hz⟩ := Option.ite_none_right_eq_some.mp hz
    obtain rfl := Option.some.inj hz
    obtain ⟨-, hw⟩ := Option.ite_none_right_eq_some.mp hw
    obtain rfl := Option.some.inj hw
    rw [← Real.rpow_mul hy.le, one_div_mul_cancel hc, Real.rpow_one]
  power_log {b y p q w} hp hq hzero hw := by
    obtain ⟨hy, hp⟩ := Option.ite_none_right_eq_some.mp hp
    obtain rfl := Option.some.inj hp
    obtain ⟨hb, hq⟩ := Option.ite_none_right_eq_some.mp hq
    obtain rfl := Option.some.inj hq
    obtain ⟨-, hw⟩ := Option.ite_none_right_eq_some.mp hw
    obtain rfl := Option.some.inj hw
    rw [Real.rpow_def_of_pos hb, mul_div_cancel₀ _ hzero, Real.exp_log hy]

end Convention

variable [DecidableEq K]

namespace Interpretation

/-- The operations of the field; nothing is divided by zero. -/
def exact (convention : Convention K) (assignment : String → Option K) :
    Interpretation Option K where
  number := convention.number
  var := assignment
  unary
    | .negate, x => some (-x)
    | .call f, x => convention.apply f x
  binary
    | .plus, x, y => some (x + y)
    | .minus, x, y => some (x - y)
    | .times, x, y => some (x * y)
    | .divide, x, y => if y = 0 then none else some (x / y)
    | .power, x, y => convention.power x y

theorem exact_divide_eq_some_iff {convention : Convention K} {assignment : String → Option K}
    {x y a : K} :
    (exact convention assignment).binary .divide x y = some a ↔ y ≠ 0 ∧ x / y = a := by
  by_cases h : y = 0 <;> simp [exact, h]

end Interpretation

namespace Expr

/-- The value of an expression in a field, if it has one. -/
def value (convention : Convention K) (assignment : String → Option K) (e : Expr) : Option K :=
  e.denote (Interpretation.exact convention assignment)

end Expr

variable {convention : Convention K} {assignment : String → Option K}

namespace Expr

theorem value_number (text : String) :
    (number text).value convention assignment = convention.number text := rfl

theorem value_unary {op : UnaryOp} {operand : Expr} {x : K}
    (hx : operand.value convention assignment = some x) :
    (unary op operand).value convention assignment =
      (Interpretation.exact convention assignment).unary op x := by
  rw [value] at hx ⊢
  simp [denote, hx]

theorem value_neg_eq_some_iff {e : Expr} {a : K} :
    (neg e).value convention assignment = some a ↔
      ∃ x, e.value convention assignment = some x ∧ -x = a := by
  simp [value, denote, Interpretation.exact, Option.bind_eq_some_iff]

theorem value_call_eq_some_iff {f : Fn} {e : Expr} {a : K} :
    (call f e).value convention assignment = some a ↔
      ∃ x, e.value convention assignment = some x ∧ convention.apply f x = some a := by
  simp [value, denote, Interpretation.exact, Option.bind_eq_some_iff]

theorem value_binary {op : BinaryOp} {left right : Expr} {x y : K}
    (hx : left.value convention assignment = some x)
    (hy : right.value convention assignment = some y) :
    (binary op left right).value convention assignment =
      (Interpretation.exact convention assignment).binary op x y := by
  rw [value] at hx hy ⊢
  simp [denote, hx, hy]

theorem value_binary_eq_some_iff {op : BinaryOp} {left right : Expr} {a : K} :
    (binary op left right).value convention assignment = some a ↔
      ∃ x y, left.value convention assignment = some x ∧
        right.value convention assignment = some y ∧
        (Interpretation.exact convention assignment).binary op x y = some a := by
  simp [value, denote, Option.bind_eq_some_iff]

end Expr

/-! ## One layer -/

namespace Layer

/-- The layers that a field can undo by itself. -/
def isArithmetic : Layer → Bool
  | negation => true
  | call _ => false
  | leftOf op _ | rightOf _ op => op != .power

/-- The value of a layer around a content of value `x`. -/
def value (convention : Convention K) (assignment : String → Option K) (layer : Layer) (x : K) :
    Option K :=
  let meaning := Interpretation.exact convention assignment
  match layer with
  | negation => meaning.unary .negate x
  | call f => meaning.unary (.call f) x
  | leftOf op right => do
    let y ← right.value convention assignment
    meaning.binary op x y
  | rightOf left op => do
    let y ← left.value convention assignment
    meaning.binary op y x

theorem value_plug_eq_some_iff {layer : Layer} {e : Expr} {a : K} :
    (layer.plug e).value convention assignment = some a ↔
      ∃ x, e.value convention assignment = some x ∧
        layer.value convention assignment x = some a := by
  cases layer with
  | negation | call f => simp [plug, value, Expr.value, Expr.denote, Option.bind_eq_some_iff]
  | leftOf op right =>
    simp only [plug, value, Expr.value_binary_eq_some_iff, Option.bind_eq_bind,
      Option.bind_eq_some_iff]
    constructor
    · rintro ⟨x, y, hx, hy, ha⟩
      exact ⟨x, hx, y, hy, ha⟩
    · rintro ⟨x, hx, y, hy, ha⟩
      exact ⟨x, y, hx, hy, ha⟩
  | rightOf left op =>
    simp only [plug, value, Expr.value_binary_eq_some_iff, Option.bind_eq_bind,
      Option.bind_eq_some_iff]
    constructor
    · rintro ⟨y, x, hy, hx, ha⟩
      exact ⟨x, hx, y, hy, ha⟩
    · rintro ⟨x, hx, y, hy, ha⟩
      exact ⟨y, x, hy, hx, ha⟩

/-- The left operand is the solution of the equation it stands in. -/
theorem eq_iff_eq_solveLeft {op : BinaryOp} {known right : Expr} {x y a b c : K} (hop : op ≠ .power)
    (ha : (Interpretation.exact convention assignment).binary op x y = some a)
    (hb : known.value convention assignment = some b)
    (hy : right.value convention assignment = some y)
    (hc : (solveLeft op known right).value convention assignment = some c) : a = b ↔ x = c := by
  cases op with
  | plus =>
    obtain rfl := Option.some.inj ha
    rw [solveLeft, Expr.value_binary hb hy] at hc
    obtain rfl := Option.some.inj hc
    exact eq_sub_iff_add_eq.symm
  | minus =>
    obtain rfl := Option.some.inj ha
    rw [solveLeft, Expr.value_binary hb hy] at hc
    obtain rfl := Option.some.inj hc
    exact sub_eq_iff_eq_add
  | times =>
    obtain rfl := Option.some.inj ha
    rw [solveLeft, Expr.value_binary hb hy] at hc
    obtain ⟨hnonzero, rfl⟩ := Interpretation.exact_divide_eq_some_iff.mp hc
    exact (eq_div_iff hnonzero).symm
  | divide =>
    obtain ⟨hnonzero, rfl⟩ := Interpretation.exact_divide_eq_some_iff.mp ha
    rw [solveLeft, Expr.value_binary hb hy] at hc
    obtain rfl := Option.some.inj hc
    exact div_eq_iff hnonzero
  | power => exact absurd rfl hop

/-- The right operand is the solution of the equation it stands in. -/
theorem eq_iff_eq_solveRight {op : BinaryOp} {known left : Expr} {x y a b c : K} (hop : op ≠ .power)
    (ha : (Interpretation.exact convention assignment).binary op y x = some a)
    (hb : known.value convention assignment = some b)
    (hy : left.value convention assignment = some y)
    (hc : (solveRight op known left).value convention assignment = some c) : a = b ↔ x = c := by
  cases op with
  | plus =>
    obtain rfl := Option.some.inj ha
    rw [solveRight, Expr.value_binary hb hy] at hc
    obtain rfl := Option.some.inj hc
    exact eq_sub_iff_add_eq'.symm
  | minus =>
    obtain rfl := Option.some.inj ha
    rw [solveRight, Expr.value_binary hy hb] at hc
    obtain rfl := Option.some.inj hc
    rw [sub_eq_iff_eq_add', eq_sub_iff_add_eq, eq_comm]
  | times =>
    obtain rfl := Option.some.inj ha
    rw [solveRight, Expr.value_binary hb hy] at hc
    obtain ⟨hnonzero, rfl⟩ := Interpretation.exact_divide_eq_some_iff.mp hc
    rw [mul_comm]
    exact (eq_div_iff hnonzero).symm
  | divide =>
    obtain ⟨hx, rfl⟩ := Interpretation.exact_divide_eq_some_iff.mp ha
    rw [solveRight, Expr.value_binary hy hb] at hc
    obtain ⟨hnonzero, rfl⟩ := Interpretation.exact_divide_eq_some_iff.mp hc
    -- Both quotients stand for the product `y = x * b`.
    rw [div_eq_iff hx, eq_div_iff hnonzero, mul_comm, eq_comm]
  | power => exact absurd rfl hop

/-- Undoing an arithmetic layer keeps the equation, in both directions. -/
theorem eq_iff_of_undo {layer : Layer} {known next : Expr} {x a b c : K}
    (harithmetic : layer.isArithmetic = true) (hundo : layer.undo known = .ok next)
    (ha : layer.value convention assignment x = some a)
    (hb : known.value convention assignment = some b)
    (hc : next.value convention assignment = some c) : a = b ↔ x = c := by
  cases layer with
  | negation =>
    obtain rfl := Option.some.inj ha
    obtain rfl := Except.ok.inj hundo
    rw [Expr.value_unary hb] at hc
    obtain rfl := Option.some.inj hc
    exact neg_eq_iff_eq_neg
  | call f => cases harithmetic
  | leftOf op right =>
    obtain ⟨y, hy, ha⟩ := Option.bind_eq_some_iff.mp ha
    obtain rfl := Except.ok.inj hundo
    exact eq_iff_eq_solveLeft (bne_iff_ne.mp harithmetic) ha hb hy hc
  | rightOf left op =>
    obtain ⟨y, hy, ha⟩ := Option.bind_eq_some_iff.mp ha
    obtain rfl := Except.ok.inj hundo
    exact eq_iff_eq_solveRight (bne_iff_ne.mp harithmetic) ha hb hy hc

/-- The known side stands in what undoing a layer makes of it. -/
theorem exists_value_of_undo {layer : Layer} {known next : Expr} {c : K}
    (hundo : layer.undo known = .ok next) (hc : next.value convention assignment = some c) :
    ∃ b, known.value convention assignment = some b := by
  cases layer with
  | negation =>
    obtain rfl := Except.ok.inj hundo
    obtain ⟨b, hb, -⟩ := Expr.value_neg_eq_some_iff.mp hc
    exact ⟨b, hb⟩
  | call f =>
    rw [undo] at hundo
    split at hundo
    · obtain rfl := Except.ok.inj hundo
      obtain ⟨b, hb, -⟩ := Expr.value_call_eq_some_iff.mp hc
      exact ⟨b, hb⟩
    · cases hundo
  | leftOf op right =>
    obtain rfl := Except.ok.inj hundo
    cases op with
    | plus | minus | times | divide | power =>
      obtain ⟨b, y, hb, -⟩ := Expr.value_binary_eq_some_iff.mp hc
      exact ⟨b, hb⟩
  | rightOf left op =>
    obtain rfl := Except.ok.inj hundo
    cases op with
    | plus | times =>
      obtain ⟨b, y, hb, -⟩ := Expr.value_binary_eq_some_iff.mp hc
      exact ⟨b, hb⟩
    | minus | divide =>
      obtain ⟨y, b, -, hb, -⟩ := Expr.value_binary_eq_some_iff.mp hc
      exact ⟨b, hb⟩
    | power =>
      obtain ⟨p, q, hp, -⟩ := Expr.value_binary_eq_some_iff.mp hc
      obtain ⟨b, hb, -⟩ := Expr.value_call_eq_some_iff.mp hp
      exact ⟨b, hb⟩

theorem eq_of_undo_call (laws : convention.Invertible) {f : Fn} (hf : f ∈ Fn.writable)
    {known next : Expr} {a b c : K} (hundo : (call f).undo known = .ok next)
    (ha : convention.apply f c = some a) (hb : known.value convention assignment = some b)
    (hc : next.value convention assignment = some c) : a = b := by
  rw [undo] at hundo
  split at hundo
  · next g hinverse =>
    obtain rfl := Except.ok.inj hundo
    rw [Expr.value_unary hb] at hc
    exact laws.apply_inverse hf hinverse hc ha
  · cases hundo

/-- A root is a base with the known power. -/
theorem eq_of_solveLeft_power (laws : convention.Invertible) {known right : Expr} {y a b c : K}
    (ha : convention.power c y = some a) (hb : known.value convention assignment = some b)
    (hy : right.value convention assignment = some y)
    (hc : (solveLeft .power known right).value convention assignment = some c) : a = b := by
  obtain ⟨b', r, hb', hr, hroot⟩ := Expr.value_binary_eq_some_iff.mp hc
  obtain rfl := Option.some.inj (hb.symm.trans hb')
  have hone : (Expr.number "1").value convention assignment = some 1 := laws.one
  rw [Expr.value_binary hone hy] at hr
  obtain ⟨hnonzero, rfl⟩ := Interpretation.exact_divide_eq_some_iff.mp hr
  exact laws.power_root hnonzero hroot ha

/-- A quotient of logarithms is an exponent with the known power. -/
theorem eq_of_solveRight_power (laws : convention.Invertible) {known left : Expr} {y a b c : K}
    (ha : convention.power y c = some a) (hb : known.value convention assignment = some b)
    (hy : left.value convention assignment = some y)
    (hc : (solveRight .power known left).value convention assignment = some c) : a = b := by
  obtain ⟨p, q, hp, hq, hquotient⟩ := Expr.value_binary_eq_some_iff.mp hc
  rw [Expr.value_unary hb] at hp
  rw [Expr.value_unary hy] at hq
  obtain ⟨hnonzero, rfl⟩ := Interpretation.exact_divide_eq_some_iff.mp hquotient
  exact laws.power_log hp hq hnonzero ha

/-- Under the laws of a convention, a content with the value of the undone side gives the layer the
value of the known side. -/
theorem eq_of_undo (laws : convention.Invertible) {layer : Layer} {known next : Expr} {a b c : K}
    (hwritable : ∀ f, layer = call f → f ∈ Fn.writable) (hundo : layer.undo known = .ok next)
    (ha : layer.value convention assignment c = some a)
    (hb : known.value convention assignment = some b)
    (hc : next.value convention assignment = some c) : a = b := by
  by_cases harithmetic : layer.isArithmetic = true
  · exact (eq_iff_of_undo harithmetic hundo ha hb hc).mpr rfl
  cases layer with
  | negation => exact absurd rfl harithmetic
  | call f => exact eq_of_undo_call laws (hwritable f rfl) hundo ha hb hc
  | leftOf op right =>
    obtain rfl : op = .power := by simpa [isArithmetic] using harithmetic
    obtain rfl := Except.ok.inj hundo
    obtain ⟨y, hy, ha⟩ := Option.bind_eq_some_iff.mp ha
    exact eq_of_solveLeft_power laws ha hb hy hc
  | rightOf left op =>
    obtain rfl : op = .power := by simpa [isArithmetic] using harithmetic
    obtain rfl := Except.ok.inj hundo
    obtain ⟨y, hy, ha⟩ := Option.bind_eq_some_iff.mp ha
    exact eq_of_solveRight_power laws ha hb hy hc

/-! ## All layers -/

theorem exists_value_of_undoAll {layers : List Layer} {known formula : Expr} {c : K}
    (hundo : undoAll layers known = .ok formula)
    (hc : formula.value convention assignment = some c) :
    ∃ b, known.value convention assignment = some b := by
  induction layers generalizing known with
  | nil =>
    obtain rfl := Except.ok.inj hundo
    exact ⟨c, hc⟩
  | cons layer layers ih =>
    obtain ⟨next, hnext, hundo⟩ := undoAll_cons_eq_ok_iff.mp hundo
    obtain ⟨b, hb⟩ := ih hundo
    exact exists_value_of_undo hnext hb

theorem exists_value_of_plugAll {layers : List Layer} {e : Expr} {a : K}
    (ha : (plugAll layers e).value convention assignment = some a) :
    ∃ x, e.value convention assignment = some x := by
  induction layers generalizing a with
  | nil => exact ⟨a, ha⟩
  | cons layer layers ih =>
    obtain ⟨y, hy, -⟩ := value_plug_eq_some_iff.mp ha
    exact ih hy

/-- Undoing arithmetic layers keeps the equation, in both directions. -/
theorem eq_iff_of_undoAll {layers : List Layer} {known formula e : Expr} {x a b c : K}
    (harithmetic : ∀ layer ∈ layers, layer.isArithmetic = true)
    (hundo : undoAll layers known = .ok formula)
    (hx : e.value convention assignment = some x)
    (ha : (plugAll layers e).value convention assignment = some a)
    (hb : known.value convention assignment = some b)
    (hc : formula.value convention assignment = some c) : a = b ↔ x = c := by
  induction layers generalizing known a b with
  | nil =>
    obtain rfl := Except.ok.inj hundo
    obtain rfl := Option.some.inj (hx.symm.trans ha)
    obtain rfl := Option.some.inj (hb.symm.trans hc)
    rfl
  | cons layer layers ih =>
    obtain ⟨next, hnext, hundo⟩ := undoAll_cons_eq_ok_iff.mp hundo
    obtain ⟨y, hy, ha⟩ := value_plug_eq_some_iff.mp ha
    obtain ⟨m, hm⟩ := exists_value_of_undoAll hundo hc
    rw [List.forall_mem_cons] at harithmetic
    calc
      a = b ↔ y = m := eq_iff_of_undo harithmetic.1 hnext ha hb hm
      _ ↔ x = c := ih harithmetic.2 hundo hy hm

/-- Under the laws of a convention, the formula inside the layers gives them the value of the known
side. -/
theorem eq_of_undoAll (laws : convention.Invertible) {layers : List Layer}
    {known formula : Expr} {a b : K} (hwritable : ∀ f, call f ∈ layers → f ∈ Fn.writable)
    (hundo : undoAll layers known = .ok formula)
    (ha : (plugAll layers formula).value convention assignment = some a)
    (hb : known.value convention assignment = some b) : a = b := by
  induction layers generalizing known a b with
  | nil =>
    obtain rfl := Except.ok.inj hundo
    exact Option.some.inj (ha.symm.trans hb)
  | cons layer layers ih =>
    obtain ⟨next, hnext, hundo⟩ := undoAll_cons_eq_ok_iff.mp hundo
    obtain ⟨y, hy, ha⟩ := value_plug_eq_some_iff.mp ha
    obtain ⟨c, hc⟩ := exists_value_of_plugAll hy
    obtain ⟨m, hm⟩ := exists_value_of_undoAll hundo hc
    have hinner : ∀ f, call f ∈ layers → f ∈ Fn.writable :=
      fun f hf ↦ hwritable f (List.mem_cons_of_mem _ hf)
    have houter : ∀ f, layer = call f → f ∈ Fn.writable := by
      intro f hf
      apply hwritable f
      rw [hf]
      exact List.mem_cons_self
    obtain rfl : y = m := ih hinner hundo hy hm
    exact eq_of_undo laws houter hnext ha hb hm

theorem mem_functions_plugAll {f : Fn} {layers : List Layer} (h : call f ∈ layers) (e : Expr) :
    f ∈ (plugAll layers e).functions := by
  induction layers with
  | nil => cases h
  | cons layer layers ih =>
    rcases List.mem_cons.mp h with rfl | hmem
    · exact List.mem_cons_self
    · have hinner := ih hmem
      cases layer with
      | negation => exact hinner
      | call g => exact List.mem_cons_of_mem _ hinner
      | leftOf op right => exact List.mem_append_left _ hinner
      | rightOf left op => exact List.mem_append_right _ hinner

end Layer

/-! ## Formulas -/

/-- A formula for a variable under arithmetic layers decides the equation: both sides have one value
exactly if the variable has the value of the formula. -/
theorem eq_iff_eq_formula {left right formula : Expr} {name : String} {a b c : K}
    (hformula : (Equation.equality left right).rearrange (.whole name) = .ok formula)
    (harithmetic : ∀ layers ∈ left.places name ++ right.places name,
      ∀ layer ∈ layers, layer.isArithmetic = true)
    (ha : left.value convention assignment = some a)
    (hb : right.value convention assignment = some b)
    (hc : formula.value convention assignment = some c) :
    a = b ↔ (Expr.var name).value convention assignment = some c := by
  obtain ⟨layers, ⟨hplaces, hnone, hundo⟩ | ⟨hnone, hplaces, hundo⟩⟩ :=
    Equation.rearrange_whole_eq_ok_iff.mp hformula
  all_goals
    have hlayers := harithmetic layers (by simp [hplaces])
    have hside := Expr.plugAll_of_places hplaces
  · rw [← hside] at ha
    obtain ⟨x, hx⟩ := Layer.exists_value_of_plugAll ha
    calc
      a = b ↔ x = c := Layer.eq_iff_of_undoAll hlayers hundo hx ha hb hc
      _ ↔ (Expr.var name).value convention assignment = some c := by rw [hx, Option.some_inj]
  · rw [← hside] at hb
    obtain ⟨x, hx⟩ := Layer.exists_value_of_plugAll hb
    calc
      a = b ↔ b = a := eq_comm
      _ ↔ x = c := Layer.eq_iff_of_undoAll hlayers hundo hx hb ha hc
      _ ↔ (Expr.var name).value convention assignment = some c := by rw [hx, Option.some_inj]

/-- Both sides of `y = a - b / (x * c)` are one, and `x` is two. -/
theorem eq_iff_eq_formula_of_denominator :
    let left := Expr.var "y"
    let right := Expr.sub (.var "a") (.div (.var "b") (.mul (.var "x") (.var "c")))
    let formula := Expr.div (.div (.var "b") (.sub (.var "a") (.var "y"))) (.var "c")
    let bare : Convention ℚ := ⟨fun _ ↦ none, fun _ _ ↦ none, fun _ _ ↦ none⟩
    let assignment (name : String) : Option ℚ :=
      [("y", 1), ("a", 3), ("b", 12), ("x", 2), ("c", 3)].lookup name
    (Equation.equality left right).rearrange (.whole "x") = .ok formula ∧
      left.value bare assignment = some 1 ∧ right.value bare assignment = some 1 ∧
      formula.value bare assignment = some 2 ∧
      ((1 : ℚ) = 1 ↔ (Expr.var "x").value bare assignment = some 2) := by
  intro left right formula bare assignment
  have hformula : (Equation.equality left right).rearrange (.whole "x") = .ok formula := rfl
  have harithmetic : ∀ layers ∈ left.places "x" ++ right.places "x",
      ∀ layer ∈ layers, layer.isArithmetic = true := by decide +kernel
  have hleft : left.value bare assignment = some 1 := by decide +kernel
  have hright : right.value bare assignment = some 1 := by decide +kernel
  have hvalue : formula.value bare assignment = some 2 := by decide +kernel
  exact ⟨hformula, hleft, hright, hvalue,
    eq_iff_eq_formula hformula harithmetic hleft hright hvalue⟩

/-- A formula satisfies the equation it was found for: put in the place of its variable, it gives
both sides one value wherever both have one. -/
theorem eq_of_substitute_formula (laws : convention.Invertible) {left right formula : Expr}
    {name : String} {a b : K}
    (hfunctions : ∀ f ∈ left.functions ++ right.functions, f ∈ Fn.writable)
    (hformula : (Equation.equality left right).rearrange (.whole name) = .ok formula)
    (ha : (left.substitute name formula).value convention assignment = some a)
    (hb : (right.substitute name formula).value convention assignment = some b) : a = b := by
  obtain ⟨layers, ⟨hplaces, hnone, hundo⟩ | ⟨hnone, hplaces, hundo⟩⟩ :=
    Equation.rearrange_whole_eq_ok_iff.mp hformula
  all_goals
    have hside := Expr.plugAll_of_places hplaces
    have hwritable (f : Fn) (hf : Layer.call f ∈ layers) : f ∈ Fn.writable := by
      have hmem := Layer.mem_functions_plugAll hf (.var name)
      rw [hside] at hmem
      exact hfunctions f (by simp [hmem])
  · rw [Expr.substitute_of_places hplaces] at ha
    rw [Expr.substitute_of_notMem (Expr.places_eq_nil_iff.mp hnone)] at hb
    exact Layer.eq_of_undoAll laws hwritable hundo ha hb
  · rw [Expr.substitute_of_places hplaces] at hb
    rw [Expr.substitute_of_notMem (Expr.places_eq_nil_iff.mp hnone)] at ha
    exact (Layer.eq_of_undoAll laws hwritable hundo hb ha).symm

/-- The equation `y = 3^(2 * sin(x))` for `y = 2`: its formula `asin((log(y) / log(3)) / 2)` is in
the range of the sine. -/
theorem eq_of_substitute_formula_of_exponent :
    let left := Expr.var "y"
    let right := Expr.pow (.number "3") (.mul (.number "2") (.call .sin (.var "x")))
    let formula :=
      Expr.call .asin (.div (.div (.call .log (.var "y")) (.call .log (.number "3"))) (.number "2"))
    let assignment (name : String) : Option ℝ := if name = "y" then some 2 else none
    let angle := Real.arcsin (Real.log 2 / Real.log 3 / 2)
    Convention.real.Invertible ∧
      (Equation.equality left right).rearrange (.whole "x") = .ok formula ∧
      (left.substitute "x" formula).value Convention.real assignment = some 2 ∧
      (right.substitute "x" formula).value Convention.real assignment =
        some (3 ^ (2 * Real.sin angle)) ∧
      (2 : ℝ) = 3 ^ (2 * Real.sin angle) := by
  intro left right formula assignment angle
  have hformula : (Equation.equality left right).rearrange (.whole "x") = .ok formula := rfl
  have hfunctions : ∀ f ∈ left.functions ++ right.functions, f ∈ Fn.writable := by decide +kernel
  have htwo : (Expr.number "2").value Convention.real assignment = some 2 := by
    rw [Expr.value_number, Convention.real_number 2 (by decide +kernel), Nat.cast_ofNat]
  have hthree : (Expr.number "3").value Convention.real assignment = some 3 := by
    rw [Expr.value_number, Convention.real_number 3 (by decide +kernel), Nat.cast_ofNat]
  have hleft : (Expr.var "y").value Convention.real assignment = some 2 := rfl
  have hpos : 0 < Real.log 2 := Real.log_pos (by norm_num)
  have hmono : Real.log 2 ≤ Real.log 3 := Real.log_le_log (by norm_num) (by norm_num)
  have hrange : -1 ≤ Real.log 2 / Real.log 3 / 2 ∧ Real.log 2 / Real.log 3 / 2 ≤ 1 := by
    have hquotient : Real.log 2 / Real.log 3 ≤ 1 := div_le_one_of_le₀ hmono (hpos.le.trans hmono)
    have hnonneg : 0 ≤ Real.log 2 / Real.log 3 := div_nonneg hpos.le (hpos.le.trans hmono)
    constructor <;> linarith
  have hlogs : (Expr.div (.call .log (.var "y")) (.call .log (.number "3"))).value Convention.real
      assignment = some (Real.log 2 / Real.log 3) := by
    have hlogy : (Expr.call .log (.var "y")).value Convention.real assignment =
        some (Real.log 2) := (Expr.value_unary hleft).trans (if_pos two_pos)
    have hlog3 : (Expr.call .log (.number "3")).value Convention.real assignment =
        some (Real.log 3) := (Expr.value_unary hthree).trans (if_pos three_pos)
    rw [Expr.value_binary hlogy hlog3]
    exact if_neg (hpos.trans_le hmono).ne'
  have hformulaValue : formula.value Convention.real assignment = some angle := by
    have hargument : (Expr.div (.div (.call .log (.var "y")) (.call .log (.number "3")))
        (.number "2")).value Convention.real assignment = some (Real.log 2 / Real.log 3 / 2) :=
      (Expr.value_binary hlogs htwo).trans (if_neg two_ne_zero)
    exact (Expr.value_unary hargument).trans (if_pos hrange)
  have hright : (right.substitute "x" formula).value Convention.real assignment =
      some (3 ^ (2 * Real.sin angle)) := by
    have hsine : (Expr.call .sin formula).value Convention.real assignment =
        some (Real.sin angle) := Expr.value_unary hformulaValue
    have hproduct : (Expr.mul (.number "2") (.call .sin formula)).value Convention.real assignment =
        some (2 * Real.sin angle) := Expr.value_binary htwo hsine
    exact (Expr.value_binary hthree hproduct).trans (if_pos three_pos)
  exact ⟨Convention.real_invertible, hformula, hleft, hright,
    eq_of_substitute_formula Convention.real_invertible hfunctions hformula hleft hright⟩

end ClosedForm
