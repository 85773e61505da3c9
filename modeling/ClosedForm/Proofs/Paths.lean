import ClosedForm.Proofs.Conservation

/-!
# Paths and places

A path goes down through the operations that are the layers around its leaf, so each place of a
variable is the end of one path (`path_iff_mem_places`). Where an equation can be arranged for a
variable there is one path to it, and the layers of the arrangement lie on that path
(`path_iff_of_arrange`); where it cannot, the sides have other than one leaf of the variable.
-/

namespace ClosedForm

namespace Layer

/-- The nodes on the way through layers down to an expression. -/
def nodes (e : Expr) : List Layer → List Expr
  | [] => [e]
  | layer :: layers => plugAll (layer :: layers) e :: nodes e layers

theorem nodes_eq_cons (e : Expr) (layers : List Layer) :
    nodes e layers = plugAll layers e :: (nodes e layers).tail := by
  cases layers <;> rfl

theorem length_nodes (e : Expr) (layers : List Layer) :
    (nodes e layers).length = layers.length + 1 := by
  induction layers with
  | nil => rfl
  | cons layer layers ih => rw [nodes, List.length_cons, ih, List.length_cons]

theorem plug_eq_call_iff {layer : Layer} {e argument : Expr} {f : Fn} :
    layer.plug e = .call f argument ↔ layer = call f ∧ e = argument := by
  cases layer <;> simp [plug]

/-- The calls on the way to a variable are the layers that are calls. -/
theorem call_mem_nodes_iff {name : String} {layers : List Layer} {f : Fn} :
    (∃ argument, .call f argument ∈ nodes (.var name) layers) ↔ call f ∈ layers := by
  induction layers with
  | nil => simp [nodes]
  | cons layer layers ih =>
    have hroot (argument : Expr) : .call f argument = plugAll (layer :: layers) (.var name) ↔
        layer = call f ∧ plugAll layers (.var name) = argument :=
      eq_comm.trans plug_eq_call_iff
    simp [nodes, hroot, exists_or, ih, eq_comm]

end Layer

namespace Expr

theorem nodes_of_mem_places {name : String} {e : Expr} {layer : Layer} {layers : List Layer}
    (h : layer :: layers ∈ e.places name) :
    Layer.nodes (.var name) (layer :: layers) = e :: Layer.nodes (.var name) layers := by
  rw [Layer.nodes, plugAll_of_mem_places h]

/-- The paths to a variable are the ways through the layers of its places. -/
theorem path_iff_mem_places {name : String} {e : Expr} {nodes : List Expr} :
    e.Path name nodes ↔ ∃ layers ∈ e.places name, nodes = Layer.nodes (.var name) layers := by
  constructor
  · intro hpath
    induction hpath with
    | leaf => exact ⟨[], by simp [places], rfl⟩
    | @unary op operand nodes h ih =>
      obtain ⟨layers, hmem, rfl⟩ := ih
      cases op with
      | negate | call f =>
        exact ⟨_, List.mem_map_of_mem hmem,
          (nodes_of_mem_places (List.mem_map_of_mem hmem)).symm⟩
    | @left op left right nodes h ih =>
      obtain ⟨layers, hmem, rfl⟩ := ih
      have hplace := List.mem_append_left ((right.places name).map (.rightOf left op :: ·))
        (List.mem_map_of_mem (f := (Layer.leftOf op right :: ·)) hmem)
      exact ⟨_, hplace, (nodes_of_mem_places hplace).symm⟩
    | @right op left right nodes h ih =>
      obtain ⟨layers, hmem, rfl⟩ := ih
      have hplace := List.mem_append_right ((left.places name).map (.leftOf op right :: ·))
        (List.mem_map_of_mem (f := (Layer.rightOf left op :: ·)) hmem)
      exact ⟨_, hplace, (nodes_of_mem_places hplace).symm⟩
  · rintro ⟨layers, hmem, rfl⟩
    induction e generalizing layers with
    | number text => cases hmem
    | var other =>
      rw [places] at hmem
      split at hmem
      · next heq =>
        rw [List.mem_singleton.mp hmem, heq]
        exact .leaf
      · cases hmem
    | unary op operand ih =>
      cases op with
      | negate | call f =>
        obtain ⟨inner, hinner, rfl⟩ := List.mem_map.mp hmem
        rw [nodes_of_mem_places hmem]
        exact (ih inner hinner).unary _
    | binary op left right ihl ihr =>
      rcases List.mem_append.mp hmem with hleft | hright
      · obtain ⟨inner, hinner, rfl⟩ := List.mem_map.mp hleft
        rw [nodes_of_mem_places hmem]
        exact (ihl inner hinner).left op right
      · obtain ⟨inner, hinner, rfl⟩ := List.mem_map.mp hright
        rw [nodes_of_mem_places hmem]
        exact (ihr inner hinner).right op left

end Expr

/-! ## Arrangements -/

namespace Equation

variable {left right : Expr} {name : String}

theorem count_of_arrange {a : Arrangement}
    (h : (equality left right).arrange (.whole name) = .ok a) :
    (left.leaves ++ right.leaves).count name = 1 := by
  rw [List.count_append, ← Expr.length_places, ← Expr.length_places]
  obtain ⟨-, ⟨hleft, hright, -⟩ | ⟨hleft, hright, -⟩⟩ := arrange_whole_eq_ok_iff.mp h
  · rw [hleft, hright, List.length_singleton, List.length_nil]
  · rw [hleft, hright, List.length_singleton, List.length_nil]

/-- A variable for which two sides cannot be arranged has no leaf or more than one. -/
theorem arrange_whole_eq_error_iff {obstacle : Obstacle} :
    (equality left right).arrange (.whole name) = .error obstacle ↔
      ((left.leaves ++ right.leaves).count name = 0 ∧ obstacle = .absent) ∨
        (2 ≤ (left.leaves ++ right.leaves).count name ∧ obstacle = .repeated) := by
  have hplaces (side : Side) (e : Expr) : (Census.whole name).places side e = e.places name := rfl
  rw [List.count_append, ← Expr.length_places, ← Expr.length_places]
  simp only [arrange, hplaces]
  split
  · next hleft hright => simp [hleft, hright]
  · next hleft hright => simp [hleft, hright]
  · next hleft hright => simp [hleft, hright, eq_comm]
  · next hone hother hnone =>
    have hmany : 2 ≤ (left.places name).length + (right.places name).length := by
      by_contra hfew
      have hle : (left.places name).length + (right.places name).length ≤ 1 := by omega
      rcases Nat.le_one_iff_eq_zero_or_eq_one.mp hle with hzero | hsingle
      · obtain ⟨hleft, hright⟩ := Nat.add_eq_zero_iff.mp hzero
        exact hnone (List.length_eq_zero_iff.mp hleft) (List.length_eq_zero_iff.mp hright)
      · rcases Nat.add_eq_one_iff.mp hsingle with ⟨hleft, hright⟩ | ⟨hleft, hright⟩
        · obtain ⟨layers, hplace⟩ := List.length_eq_one_iff.mp hright
          exact hother layers (List.length_eq_zero_iff.mp hleft) hplace
        · obtain ⟨layers, hplace⟩ := List.length_eq_one_iff.mp hleft
          exact hone layers hplace (List.length_eq_zero_iff.mp hright)
    have hsome : (left.places name).length + (right.places name).length ≠ 0 := by omega
    simp only [hmany, hsome, Except.error.injEq, false_and, true_and, false_or, eq_comm]

theorem subject_of_arrange {q : Equation} {a : Arrangement} (h : q.arrange (.whole name) = .ok a) :
    a.subject = name := by
  cases q with
  | expression e => cases h
  | equality left right => exact (arrange_whole_eq_ok_iff.mp h).1

/-- The layers of an arrangement lie on the only path to the variable. -/
theorem path_iff_of_arrange {q : Equation} {a : Arrangement}
    (h : q.arrange (.whole name) = .ok a) {nodes : List Expr} :
    q.Path name nodes ↔ nodes = Layer.nodes (.var name) a.layers := by
  cases q with
  | expression e => cases h
  | equality left right =>
    rw [path_equality_iff, Expr.path_iff_mem_places, Expr.path_iff_mem_places]
    obtain ⟨-, ⟨hleft, hright, -⟩ | ⟨hleft, hright, -⟩⟩ := arrange_whole_eq_ok_iff.mp h
    · simp [hleft, hright]
    · simp [hleft, hright]

end Equation

end ClosedForm
