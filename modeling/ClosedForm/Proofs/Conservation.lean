import ClosedForm.Proofs.Isolable
import Mathlib.Algebra.Order.Group.Multiset
import Mathlib.Data.Multiset.Filter

/-!
# What is kept when a variable is isolated

Undoing a layer moves the other operand of the operation from one side of the equation to the other,
leaves and all. Nothing is lost in passing and nothing comes in, except for the one that is divided
by an exponent to take a root. So a formula has the leaves of the equation without the variable it
is for, and a `1` for each power that the variable is in the base of (`leaves_formula_eq`).
-/

namespace ClosedForm

namespace Expr

/-! ## Atoms -/

/-- The leaves of both kinds, with repetitions, each as an expression. -/
def atoms : Expr → Multiset Expr
  | number text => {number text}
  | var name => {var name}
  | unary _ operand => operand.atoms
  | binary _ left right => left.atoms + right.atoms

/-- The texts of the number leaves from left to right, with repetitions. -/
def numbers : Expr → List String
  | number text => [text]
  | var _ => []
  | unary _ operand => operand.numbers
  | binary _ left right => left.numbers ++ right.numbers

def numberText? : Expr → Option String
  | number text => some text
  | var _ | unary _ _ | binary _ _ _ => none

def varName? : Expr → Option String
  | var name => some name
  | number _ | unary _ _ | binary _ _ _ => none

theorem filterMap_numberText? (e : Expr) : e.atoms.filterMap numberText? = e.numbers := by
  induction e with
  | number text | var name => rfl
  | unary op operand ih => exact ih
  | binary op left right ihl ihr =>
    rw [atoms, numbers, Multiset.filterMap_add, ihl, ihr, Multiset.coe_add]

theorem filterMap_varName? (e : Expr) : e.atoms.filterMap varName? = e.leaves := by
  induction e with
  | number text | var name => rfl
  | unary op operand ih => exact ih
  | binary op left right ihl ihr =>
    rw [atoms, leaves, Multiset.filterMap_add, ihl, ihr, Multiset.coe_add]

end Expr

namespace Layer

/-- The atoms of the other operand. -/
def atoms : Layer → Multiset Expr
  | negation | call _ => 0
  | leftOf _ right => right.atoms
  | rightOf left _ => left.atoms

/-- Is the content of the layer the base of a power? -/
def isBase : Layer → Bool
  | leftOf .power _ => true
  | _ => false

/-- What undoing the layer brings in: a root is the power by one over the exponent. -/
def units (layer : Layer) : Multiset Expr :=
  if layer.isBase then {.number "1"} else 0

theorem atoms_plug (layer : Layer) (e : Expr) : (layer.plug e).atoms = e.atoms + layer.atoms := by
  cases layer with
  | negation | call f => exact (add_zero _).symm
  | leftOf op right => rfl
  | rightOf left op => exact add_comm _ _

theorem atoms_solveLeft (op : BinaryOp) (known right : Expr) :
    (solveLeft op known right).atoms = known.atoms + right.atoms + (leftOf op right).units := by
  cases op with
  | plus | minus | times | divide => exact (add_zero _).symm
  | power =>
    calc
      known.atoms + ({.number "1"} + right.atoms) =
          known.atoms + (right.atoms + {.number "1"}) := by
        rw [add_comm right.atoms]
      _ = known.atoms + right.atoms + {.number "1"} := (add_assoc _ _ _).symm

theorem atoms_solveRight (op : BinaryOp) (known left : Expr) :
    (solveRight op known left).atoms = known.atoms + left.atoms := by
  cases op with
  | plus | times | power => rfl
  | minus | divide => exact add_comm _ _

theorem undo_call_eq_ok_iff {f : Fn} {known next : Expr} :
    (call f).undo known = .ok next ↔ ∃ g, f.inverse? = some g ∧ next = .call g known := by
  rw [undo]
  split
  · next g hinverse => simp [hinverse, eq_comm]
  · next hinverse => simp [hinverse]

theorem atoms_undo {layer : Layer} {known next : Expr} (h : layer.undo known = .ok next) :
    next.atoms = known.atoms + layer.atoms + layer.units := by
  cases layer with
  | negation =>
    obtain rfl := Except.ok.inj h
    simp [Expr.atoms, atoms, units, isBase]
  | call f =>
    obtain ⟨g, -, rfl⟩ := undo_call_eq_ok_iff.mp h
    simp [Expr.atoms, atoms, units, isBase]
  | leftOf op right =>
    obtain rfl := Except.ok.inj h
    exact atoms_solveLeft op known right
  | rightOf left op =>
    obtain rfl := Except.ok.inj h
    have hunits : (rightOf left op).units = 0 := rfl
    rw [atoms_solveRight, hunits, add_zero, atoms]

theorem replicate_countP_cons (layer : Layer) (layers : List Layer) :
    Multiset.replicate ((layer :: layers).countP isBase) (Expr.number "1") =
      layer.units + Multiset.replicate (layers.countP isBase) (.number "1") := by
  cases hbase : layer.isBase with
  | true =>
    rw [List.countP_cons_of_pos hbase, units, hbase, if_pos rfl, Multiset.replicate_succ,
      Multiset.singleton_add]
  | false =>
    rw [List.countP_cons_of_neg (by simp [hbase]), units, hbase, if_neg Bool.false_ne_true,
      zero_add]

/-- The two sides keep their atoms while layers are undone, and gain a one for each root. -/
theorem atoms_undoAll {layers : List Layer} {known formula : Expr}
    (h : undoAll layers known = .ok formula) (e : Expr) :
    e.atoms + formula.atoms = (plugAll layers e).atoms + known.atoms +
      Multiset.replicate (layers.countP isBase) (.number "1") := by
  induction layers generalizing known with
  | nil =>
    obtain rfl := Except.ok.inj h
    exact (add_zero _).symm
  | cons layer layers ih =>
    obtain ⟨next, hnext, hundo⟩ := undoAll_cons_eq_ok_iff.mp h
    have hplug : (plugAll (layer :: layers) e).atoms = (plugAll layers e).atoms + layer.atoms :=
      atoms_plug layer _
    rw [ih hundo, atoms_undo hnext, hplug, replicate_countP_cons]
    ac_rfl

end Layer

/-! ## Powers on the way -/

namespace Expr

/-- Is the expression a power with the variable in its base? -/
def raises (name : String) : Expr → Bool
  | binary .power base _ => base.mentions name
  | _ => false

/-- The only place of a variable lies in the base of as many powers as the path to it goes through
from there. -/
theorem countP_raises_eq {name : String} {e : Expr} {nodes : List Expr} (hpath : e.Path name nodes)
    {layers : List Layer} (hplace : e.places name = [layers]) :
    nodes.countP (raises name) = layers.countP Layer.isBase := by
  induction hpath generalizing layers with
  | leaf =>
    obtain rfl : [] = layers := by simpa [places] using hplace
    rfl
  | @unary op operand nodes h ih =>
    cases op with
    | negate | call f =>
      obtain ⟨inner, hinner, rfl⟩ := List.map_eq_singleton_iff.mp hplace
      rw [List.countP_cons_of_neg (by simp [raises]),
        List.countP_cons_of_neg (by simp [Layer.isBase])]
      exact ih hinner
  | @left op left right nodes h ih =>
    have hmem : name ∈ left.leaves := exists_path_iff.mp ⟨nodes, h⟩
    have hsome : left.places name ≠ [] := fun hnone ↦ places_eq_nil_iff.mp hnone hmem
    rcases List.append_eq_singleton_iff.mp hplace with ⟨hleft, -⟩ | ⟨hleft, -⟩
    · exact absurd (List.map_eq_nil_iff.mp hleft) hsome
    · obtain ⟨inner, hinner, rfl⟩ := List.map_eq_singleton_iff.mp hleft
      have hbase : raises name (binary op left right) = (Layer.leftOf op right).isBase := by
        cases op with
        | power => exact mentions_eq_true_iff.mpr hmem
        | plus | minus | times | divide => rfl
      rw [List.countP_cons, List.countP_cons, ih hinner, hbase]
  | @right op left right nodes h ih =>
    have hmem : name ∈ right.leaves := exists_path_iff.mp ⟨nodes, h⟩
    have hsome : right.places name ≠ [] := fun hnone ↦ places_eq_nil_iff.mp hnone hmem
    rcases List.append_eq_singleton_iff.mp hplace with ⟨hleft, hright⟩ | ⟨-, hright⟩
    · obtain ⟨inner, hinner, rfl⟩ := List.map_eq_singleton_iff.mp hright
      have hfree : name ∉ left.leaves := places_eq_nil_iff.mp (List.map_eq_nil_iff.mp hleft)
      have hbase : raises name (binary op left right) = (Layer.rightOf left op).isBase := by
        cases op with
        | power => exact Bool.eq_false_iff.mpr (mt mentions_eq_true_iff.mp hfree)
        | plus | minus | times | divide => rfl
      rw [List.countP_cons, List.countP_cons, ih hinner, hbase]
    · exact absurd (List.map_eq_nil_iff.mp hright) hsome

theorem mem_vars_iff {name : String} {e : Expr} : name ∈ e.vars ↔ name ∈ e.leaves :=
  List.mem_eraseDups

end Expr

namespace Equation

/-- A path from the root of a side down to a leaf of the variable. -/
def Path (name : String) (q : Equation) (nodes : List Expr) : Prop :=
  ∃ side ∈ q.sides, side.Path name nodes

variable {left right formula : Expr} {name : String}

theorem path_equality_iff {nodes : List Expr} :
    (equality left right).Path name nodes ↔ left.Path name nodes ∨ right.Path name nodes := by
  simp [Path, sides]

theorem mem_vars_equality_iff :
    name ∈ (equality left right).vars ↔ name ∈ left.leaves ∨ name ∈ right.leaves := by
  simp [vars, sides]

/-- The variable and the atoms of its formula are the atoms of both sides, and a one for each power
whose base the path to the variable goes through. -/
theorem atoms_rearrange (h : (equality left right).rearrange (.whole name) = .ok formula)
    {nodes : List Expr} (hpath : (equality left right).Path name nodes) :
    (Expr.var name).atoms + formula.atoms = left.atoms + right.atoms +
      Multiset.replicate (nodes.countP (Expr.raises name)) (.number "1") := by
  have hnone {e : Expr} (he : e.places name = []) : ¬e.Path name nodes :=
    fun hleaf ↦ Expr.places_eq_nil_iff.mp he (Expr.exists_path_iff.mp ⟨nodes, hleaf⟩)
  rw [path_equality_iff] at hpath
  obtain ⟨layers, ⟨hplace, hother, hundo⟩ | ⟨hother, hplace, hundo⟩⟩ :=
    rearrange_whole_eq_ok_iff.mp h
  · have hcount := Expr.countP_raises_eq (hpath.resolve_right (hnone hother)) hplace
    rw [Layer.atoms_undoAll hundo, Expr.plugAll_of_places hplace, hcount]
  · have hcount := Expr.countP_raises_eq (hpath.resolve_left (hnone hother)) hplace
    rw [Layer.atoms_undoAll hundo, Expr.plugAll_of_places hplace, hcount, add_comm left.atoms]

theorem count_leaves_of_rearrange
    (h : (equality left right).rearrange (.whole name) = .ok formula) :
    (left.leaves ++ right.leaves).count name = 1 :=
  (exists_rearrange_iff.mp ⟨formula, h⟩).1

theorem exists_path_of_rearrange
    (h : (equality left right).rearrange (.whole name) = .ok formula) :
    ∃ nodes, (equality left right).Path name nodes := by
  have hcount := count_leaves_of_rearrange h
  have hmem : name ∈ left.leaves ++ right.leaves := List.count_pos_iff.mp (by omega)
  simp only [path_equality_iff, exists_or, Expr.exists_path_iff]
  exact List.mem_append.mp hmem

/-- The variable and the names in its formula are the names in both sides. -/
theorem leaves_rearrange (h : (equality left right).rearrange (.whole name) = .ok formula) :
    name ::ₘ (formula.leaves : Multiset String) = left.leaves + right.leaves := by
  obtain ⟨nodes, hpath⟩ := exists_path_of_rearrange h
  have hatoms := congrArg (Multiset.filterMap Expr.varName?) (atoms_rearrange h hpath)
  have hones : (Multiset.replicate (nodes.countP (Expr.raises name))
      (Expr.number "1")).filterMap Expr.varName? = 0 :=
    congrArg Multiset.ofList (List.filterMap_replicate_of_none rfl)
  simpa [Multiset.filterMap_add, Expr.filterMap_varName?, hones, Expr.leaves] using hatoms

/-- The numbers in a formula are those in both sides, and a one for each root. -/
theorem numbers_rearrange (h : (equality left right).rearrange (.whole name) = .ok formula)
    {nodes : List Expr} (hpath : (equality left right).Path name nodes) :
    (formula.numbers : Multiset String) = left.numbers + right.numbers +
      Multiset.replicate (nodes.countP (Expr.raises name)) "1" := by
  have hatoms := congrArg (Multiset.filterMap Expr.numberText?) (atoms_rearrange h hpath)
  have hones : (Multiset.replicate (nodes.countP (Expr.raises name))
      (Expr.number "1")).filterMap Expr.numberText? =
        Multiset.replicate (nodes.countP (Expr.raises name)) "1" :=
    congrArg Multiset.ofList (List.filterMap_replicate_of_some rfl)
  simpa [Multiset.filterMap_add, Expr.filterMap_numberText?, hones, Expr.numbers] using hatoms

theorem notMem_leaves_of_rearrange
    (h : (equality left right).rearrange (.whole name) = .ok formula) : name ∉ formula.leaves := by
  have hcount : (name ::ₘ (formula.leaves : Multiset String)).count name = 1 := by
    rw [leaves_rearrange h, Multiset.coe_add, Multiset.coe_count]
    exact count_leaves_of_rearrange h
  rw [Multiset.count_cons_self, Multiset.coe_count] at hcount
  exact List.count_eq_zero.mp (Nat.succ.inj hcount)

/-- A formula has the leaves of the equation without the variable, and a one for each power whose
base the variable is in. -/
theorem leaves_formula_eq (h : (equality left right).rearrange (.whole name) = .ok formula) :
    (left.leaves ++ right.leaves).count name = 1 ∧
      (formula.leaves : Multiset String) =
        (left.leaves + right.leaves : Multiset String).erase name ∧
      (∃ nodes, (equality left right).Path name nodes) ∧
      (∀ nodes, (equality left right).Path name nodes →
        (formula.numbers : Multiset String) = left.numbers + right.numbers +
          Multiset.replicate (nodes.countP (Expr.raises name)) "1") ∧
      formula.mentions name = false ∧
      ∀ other, other ∈ formula.vars ↔ other ∈ (equality left right).vars ∧ other ≠ name := by
  have hleaves := leaves_rearrange h
  have hfree := notMem_leaves_of_rearrange h
  refine ⟨count_leaves_of_rearrange h, ?_, exists_path_of_rearrange h,
    fun nodes hpath ↦ numbers_rearrange h hpath, ?_, fun other ↦ ?_⟩
  · rw [← hleaves, Multiset.erase_cons_head]
  · exact Bool.eq_false_iff.mpr (mt Expr.mentions_eq_true_iff.mp hfree)
  · have hmem : other = name ∨ other ∈ formula.leaves ↔
        other ∈ left.leaves ∨ other ∈ right.leaves := by
      have hsame := congrArg (other ∈ ·) hleaves
      simpa using hsame
    have hne : other ∈ formula.leaves → other ≠ name := by
      rintro hother rfl
      exact hfree hother
    rw [Expr.mem_vars_iff, mem_vars_equality_iff, ← hmem, or_and_right, and_not_self_iff, false_or,
      and_iff_left_of_imp hne]

/-- From `k = (2 * x)^n - 1` one gets to `x = ((k + 1)^(1 / n)) / 2`, which has a second `1`. -/
theorem leaves_formula_eq_of_power :
    let base := Expr.mul (.number "2") (.var "x")
    let power := Expr.pow base (.var "n")
    let right := Expr.sub power (.number "1")
    let root := Expr.pow (.add (.var "k") (.number "1")) (.div (.number "1") (.var "n"))
    let formula := Expr.div root (.number "2")
    let q := equality (.var "k") right
    q.rearrange (.whole "x") = .ok formula ∧
      (formula.leaves : Multiset String) = {"k", "n"} ∧
      q.Path "x" [right, power, base, .var "x"] ∧
      (formula.numbers : Multiset String) = {"2", "1"} + {"1"} ∧
      formula.mentions "x" = false ∧
      ∀ other, other ∈ formula.vars ↔ other ∈ q.vars ∧ other ≠ "x" := by
  intro base power right root formula q
  have hformula : q.rearrange (.whole "x") = .ok formula := rfl
  have hpath : q.Path "x" [right, power, base, .var "x"] :=
    path_equality_iff.mpr (.inr (.left _ _ (.left _ _ (.right _ _ .leaf))))
  obtain ⟨-, hleaves, -, hnumbers, hfree, hvars⟩ := leaves_formula_eq hformula
  exact ⟨hformula, hleaves.trans (by decide), hpath, (hnumbers _ hpath).trans (by decide), hfree,
    hvars⟩

end Equation

end ClosedForm
