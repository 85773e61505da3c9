import ClosedForm.Proofs.Replacement
import ClosedForm.Proofs.Formula
import ClosedForm.Proofs.Walk

/-!
# Counting on one side only

A census of one side is blind to the other side, so a variable is isolated if that side has one leaf
of it below no absolute value, whatever stands on the other side. The formula is what isolating the
variable leads to after its leaves on the other side have been given a name of their own, with that
name turned back (`rearrange_only`). So the variable is in its own formula as often as it is on the
other side.
-/

namespace ClosedForm

/-- A census of one side. -/
def Census.only (subject : String) (side : Side) : Census :=
  ⟨subject, .only side⟩

/-- The equation with one expression on this side and another one on the opposite side. -/
def Side.equality (side : Side) (near far : Expr) : Equation :=
  match side with
  | left => .equality near far
  | right => .equality far near

/-! ## Names turned back -/

theorem Expr.substitute_substitute_of_notMem {e : Expr} {other : String} (h : other ∉ e.leaves)
    (name : String) : (e.substitute name (.var other)).substitute other (.var name) = e := by
  induction e with
  | number text => rfl
  | var leaf =>
    by_cases hleaf : leaf = name
    · simp [substitute, hleaf]
    · have hne : leaf ≠ other := by simpa [leaves, eq_comm] using h
      simp [substitute, hleaf, hne]
  | unary op operand ih => rw [substitute, substitute, ih h]
  | binary op left right ihl ihr =>
    rw [leaves, List.mem_append, not_or] at h
    rw [substitute, substitute, ihl h.1, ihr h.2]

theorem Expr.notMem_leaves_substitute {e : Expr} {other : String} (h : other ∉ e.leaves)
    (name : String) : name ∉ (e.substitute name (.var other)).leaves := by
  intro hmem
  rw [leaves_substitute] at hmem
  obtain ⟨leaf, hleaf, hname⟩ := List.mem_flatMap.mp hmem
  by_cases heq : leaf = name
  · obtain rfl : name = other := by simpa [heq, leaves] using hname
    exact h (heq ▸ hleaf)
  · have hself : name = leaf := by simpa [heq] using hname
    exact heq hself.symm

namespace Layer

variable {name other : String} {layer : Layer} {layers : List Layer} {known formula : Expr}

theorem mem_leaves_plugAll (hlayer : layer ∈ layers) (h : other ∈ layer.leaves) (e : Expr) :
    other ∈ (plugAll layers e).leaves := by
  induction layers with
  | nil => cases hlayer
  | cons outer layers ih =>
    have hplug : plugAll (outer :: layers) e = outer.plug (plugAll layers e) := rfl
    rw [hplug]
    rcases List.mem_cons.mp hlayer with rfl | hinner
    · cases layer with
      | negation | call f => cases h
      | leftOf op right => exact List.mem_append_right _ h
      | rightOf left op => exact List.mem_append_left _ h
    · cases outer with
      | negation | call f => exact ih hinner
      | leftOf op right => exact List.mem_append_left _ (ih hinner)
      | rightOf left op => exact List.mem_append_right _ (ih hinner)

/-- The other operands of the layers around a place are part of the expression. -/
theorem notMem_leaves_of_places {e : Expr} (hplace : e.places name = [layers])
    (h : other ∉ e.leaves) : ∀ layer ∈ layers, other ∉ layer.leaves := by
  intro layer hlayer hmem
  rw [← Expr.plugAll_of_places hplace] at h
  exact h (mem_leaves_plugAll hlayer hmem _)

theorem replace_of_notMem (h : other ∉ layer.leaves) (value : Expr) :
    layer.replace (fun leaf ↦ if leaf = other then value else .var leaf) = layer := by
  cases layer with
  | negation | call f => rfl
  | leftOf op right => rw [replace, ← Expr.substitute_eq_replace, Expr.substitute_of_notMem h]
  | rightOf left op => rw [replace, ← Expr.substitute_eq_replace, Expr.substitute_of_notMem h]

/-- Substituting for a variable that the layers do not have reaches only what they are undone on. -/
theorem undoAll_substitute (h : ∀ layer ∈ layers, other ∉ layer.leaves) (known value : Expr) :
    undoAll layers (known.substitute other value) =
      (undoAll layers known).map (·.substitute other value) := by
  let values (leaf : String) : Expr := if leaf = other then value else .var leaf
  have hlayers : layers.map (replace values) = layers := by
    calc
      layers.map (replace values) = layers.map id :=
        List.map_congr_left fun layer hlayer ↦ replace_of_notMem (h layer hlayer) value
      _ = layers := List.map_id layers
  have hreplace := undoAll_replace values layers known
  rw [hlayers] at hreplace
  simpa only [Expr.substitute_eq_replace] using hreplace

/-- The leaves stay on the two sides while layers are undone. -/
theorem leaves_undoAll (h : undoAll layers known = .ok formula) (e : Expr) :
    (e.leaves + formula.leaves : Multiset String) = (plugAll layers e).leaves + known.leaves := by
  have hatoms := congrArg (Multiset.filterMap Expr.varName?) (atoms_undoAll h e)
  have hones : (Multiset.replicate (layers.countP isBase) (Expr.number "1")).filterMap
      Expr.varName? = 0 := congrArg Multiset.ofList (List.filterMap_replicate_of_none rfl)
  simpa [Multiset.filterMap_add, Expr.filterMap_varName?, hones] using hatoms

end Layer

/-! ## Isolation by the count of one side -/

/-- The arrangement that the places of a variable on one side call for. -/
def Arrangement.ofPlaces (subject : String) (places : List (List Layer)) (known : Expr) :
    Except Obstacle Arrangement :=
  match places with
  | [layers] => .ok ⟨subject, layers, known⟩
  | [] => .error .absent
  | _ => .error .repeated

theorem Arrangement.solve_substitute {other : String} {layers : List Layer}
    (h : ∀ layer ∈ layers, other ∉ layer.leaves) (subject : String) (known value : Expr) :
    solve ⟨subject, layers, known.substitute other value⟩ =
      (solve ⟨subject, layers, known⟩).map (·.substitute other value) := by
  rw [solve, solve, Layer.undoAll_substitute h]
  cases Layer.undoAll layers known <;> rfl

namespace Equation

variable {side : Side} {near far formula : Expr} {name other : String}

theorem arrange_only (side : Side) (near far : Expr) (name : String) :
    (side.equality near far).arrange (.only name side) =
      Arrangement.ofPlaces name (near.places name) far := by
  cases side with
  | left | right =>
    simp only [Side.equality, arrange, Census.only, Census.places, Scope.covers]
    rcases near.places name with _ | ⟨layers, _ | ⟨second, more⟩⟩ <;> rfl

/-- On the opposite side there is nothing to be counted. -/
theorem arrange_whole_of_notMem (h : name ∉ far.leaves) :
    (side.equality near far).arrange (.whole name) =
      Arrangement.ofPlaces name (near.places name) far := by
  have hfar : far.places name = [] := Expr.places_eq_nil_iff.mpr h
  cases side with
  | left | right =>
    simp only [Side.equality, arrange, Census.whole, Census.places, Scope.covers, hfar]
    rcases near.places name with _ | ⟨layers, _ | ⟨second, more⟩⟩ <;> rfl

/-- What a formula found by the count of one side comes from: that side has one place of the
variable, and undoing the layers around it takes the other side to the formula. -/
theorem rearrange_only_eq_ok_iff :
    (side.equality near far).rearrange (.only name side) = .ok formula ↔
      ∃ layers, near.places name = [layers] ∧ Layer.undoAll layers far = .ok formula := by
  rw [rearrange_eq_ok_iff, arrange_only]
  rcases near.places name with _ | ⟨layers, _ | ⟨second, more⟩⟩ <;>
    simp [Arrangement.ofPlaces]

theorem exists_rearrange_only_iff :
    (∃ formula, (side.equality near far).rearrange (.only name side) = .ok formula) ↔
      near.leaves.count name = 1 ∧ ¬near.Hides name := by
  rw [← Expr.length_places, List.length_eq_one_iff, Expr.hides_iff_mem_places]
  simp only [rearrange_only_eq_ok_iff]
  constructor
  · rintro ⟨formula, layers, hplace, hundo⟩
    have habs : Layer.call .abs ∉ layers := Layer.exists_undoAll_iff.mp ⟨formula, hundo⟩
    exact ⟨⟨layers, hplace⟩, by simpa [hplace] using habs⟩
  · rintro ⟨⟨layers, hplace⟩, habs⟩
    rw [hplace] at habs
    obtain ⟨formula, hundo⟩ := (@Layer.exists_undoAll_iff layers far).mpr (by simpa using habs)
    exact ⟨formula, layers, hplace, hundo⟩

/-- The variable is in its formula as often as it is on the side that was not counted. -/
theorem count_leaves_of_rearrange_only
    (h : (side.equality near far).rearrange (.only name side) = .ok formula) :
    formula.leaves.count name = far.leaves.count name := by
  obtain ⟨layers, hplace, hundo⟩ := rearrange_only_eq_ok_iff.mp h
  have hnear : near.leaves.count name = 1 := (exists_rearrange_only_iff.mp ⟨formula, h⟩).1
  have hcount := congrArg (Multiset.count name) (Layer.leaves_undoAll hundo (.var name))
  rw [Expr.plugAll_of_places hplace] at hcount
  simpa [Expr.leaves, hnear, Nat.add_comm] using hcount

/-- Giving the variable another name on the side that is not counted and turning the name back in
the formula changes nothing. -/
theorem rearrange_only_eq_map (hnear : other ∉ near.leaves) (hfar : other ∉ far.leaves) :
    (side.equality near far).rearrange (.only name side) =
      ((side.equality near (far.substitute name (.var other))).rearrange (.whole name)).map
        (·.substitute other (.var name)) := by
  have hfree := Expr.notMem_leaves_substitute hfar name
  rw [rearrange, rearrange, arrange_only, arrange_whole_of_notMem hfree]
  rcases hplaces : near.places name with _ | ⟨layers, _ | ⟨second, more⟩⟩
  · rfl
  · have hsolve := Arrangement.solve_substitute (Layer.notMem_leaves_of_places hplaces hnear) name
      (far.substitute name (.var other)) (.var name)
    rw [Expr.substitute_substitute_of_notMem hfar] at hsolve
    exact hsolve
  · rfl

/-- With a census of one side a variable is isolated if that side has one leaf of it below no
absolute value. The formula is the one found when the variable has another name on the opposite
side, with that name turned back, so it mentions the variable if the opposite side does. A walk by
the counts of the one side finds it, too. -/
theorem rearrange_only (side : Side) (near far : Expr) (name : String) :
    let q := side.equality near far
    ((∃ formula, q.rearrange (.only name side) = .ok formula) ↔
        near.leaves.count name = 1 ∧ ¬near.Hides name) ∧
      (∀ other, other ∉ near.leaves → other ∉ far.leaves →
        q.rearrange (.only name side) =
          ((side.equality near (far.substitute name (.var other))).rearrange (.whole name)).map
            (·.substitute other (.var name))) ∧
      (∀ formula, q.rearrange (.only name side) = .ok formula →
        (formula.mentions name = true ↔ far.mentions name = true)) ∧
      q.walk (.only name side) = (q.rearrange (.only name side)).mapError .obstacle := by
  refine ⟨exists_rearrange_only_iff, fun other hnear hfar ↦ rearrange_only_eq_map hnear hfar,
    fun formula hformula ↦ ?_, walk_eq _ _⟩
  have hcount := count_leaves_of_rearrange_only hformula
  rw [Expr.mentions_eq_true_iff, Expr.mentions_eq_true_iff, ← List.count_pos_iff, hcount,
    List.count_pos_iff]

/-- From `x + y = 2 * sin(x)` with `x` counted on the right one gets to `x = asin((x + y) / 2)`, the
formula from `z + y = 2 * sin(x)` with `z` turned back. -/
theorem rearrange_only_of_both_sides :
    let near := Expr.mul (.number "2") (.call .sin (.var "x"))
    let far := Expr.add (.var "x") (.var "y")
    let formula := Expr.call .asin (.div far (.number "2"))
    let renamed := Expr.call .asin (.div (.add (.var "z") (.var "y")) (.number "2"))
    "z" ∉ near.leaves ∧ "z" ∉ far.leaves ∧
      (equality (.add (.var "z") (.var "y")) near).rearrange (.whole "x") = .ok renamed ∧
      renamed.substitute "z" (.var "x") = formula ∧
      (equality far near).rearrange (.only "x" .right) = .ok formula ∧
      (formula.mentions "x" = true ↔ far.mentions "x" = true) ∧
      (equality far near).rearrange (.whole "x") = .error .repeated := by
  intro near far formula renamed
  obtain ⟨-, hrenamed, hmentions, -⟩ := rearrange_only .right near far "x"
  have hnear : "z" ∉ near.leaves := by decide
  have hfar : "z" ∉ far.leaves := by decide
  have hsolved : (equality (.add (.var "z") (.var "y")) near).rearrange (.whole "x") =
      .ok renamed := rfl
  have hback : renamed.substitute "z" (.var "x") = formula := rfl
  have hformula : (equality far near).rearrange (.only "x" .right) = .ok formula :=
    hrenamed "z" hnear hfar
  exact ⟨hnear, hfar, hsolved, hback, hformula, hmentions formula hformula, rfl⟩

end Equation

end ClosedForm
