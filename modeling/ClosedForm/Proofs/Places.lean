import ClosedForm.Arrangement
import ClosedForm.Expr.Substitution
import ClosedForm.Proofs.Results

/-!
# The one place of a variable

A variable has as many places in an expression as it has leaves. Where there is only one, the
layers around it are free of the variable, so a substitution reaches the content of the layers and
nothing else. An equation is arranged for a variable exactly if one side has one place of it and the
other side has none.
-/

namespace ClosedForm

namespace Layer

/-- The variables of the other operand. -/
def leaves : Layer → List String
  | negation | call _ => []
  | leftOf _ right => right.leaves
  | rightOf left _ => left.leaves

theorem substitute_plug {name : String} {layer : Layer} (h : name ∉ layer.leaves) (e value : Expr) :
    (layer.plug e).substitute name value = layer.plug (e.substitute name value) := by
  cases layer with
  | negation | call f => rfl
  | leftOf op right =>
    rw [plug, Expr.substitute, Expr.substitute_of_notMem h]
    rfl
  | rightOf left op =>
    rw [plug, Expr.substitute, Expr.substitute_of_notMem h]
    rfl

theorem substitute_plugAll {name : String} {layers : List Layer}
    (h : ∀ layer ∈ layers, name ∉ layer.leaves) (e value : Expr) :
    (plugAll layers e).substitute name value = plugAll layers (e.substitute name value) := by
  induction layers with
  | nil => rfl
  | cons layer layers ih =>
    have hinner := ih fun inner hmem ↦ h inner (List.mem_cons_of_mem _ hmem)
    calc
      _ = layer.plug ((plugAll layers e).substitute name value) :=
        substitute_plug (h layer List.mem_cons_self) _ _
      _ = layer.plug (plugAll layers (e.substitute name value)) := by rw [hinner]

theorem undoAll_cons_eq_ok_iff {layer : Layer} {layers : List Layer} {known formula : Expr} :
    undoAll (layer :: layers) known = .ok formula ↔
      ∃ next, layer.undo known = .ok next ∧ undoAll layers next = .ok formula := by
  rw [undoAll]
  exact bind_eq_ok_iff

end Layer

namespace Expr

theorem length_places (name : String) (e : Expr) :
    (e.places name).length = e.leaves.count name := by
  induction e with
  | number text => rfl
  | var other => by_cases h : other = name <;> simp [places, leaves, h]
  | unary op operand ih =>
    cases op with
    | negate | call f => simpa [places, leaves] using ih
  | binary op left right ihl ihr => simp [places, leaves, ihl, ihr]

theorem places_eq_nil_iff {name : String} {e : Expr} : e.places name = [] ↔ name ∉ e.leaves := by
  rw [← List.length_eq_zero_iff, length_places, List.count_eq_zero]

theorem notMem_leaves_of_places {name : String} {e : Expr} {layers : List Layer}
    (h : e.places name = [layers]) : ∀ layer ∈ layers, name ∉ layer.leaves := by
  induction e generalizing layers with
  | number text => cases h
  | var other =>
    rw [places] at h
    split at h
    · obtain rfl := List.singleton_inj.mp h
      simp
    · cases h
  | unary op operand ih =>
    cases op with
    | negate | call f =>
      obtain ⟨inner, hinner, rfl⟩ := List.map_eq_singleton_iff.mp h
      simpa [Layer.leaves] using ih hinner
  | binary op left right ihl ihr =>
    rcases List.append_eq_singleton_iff.mp h with ⟨hleft, hright⟩ | ⟨hleft, hright⟩
    · obtain ⟨inner, hinner, rfl⟩ := List.map_eq_singleton_iff.mp hright
      have hfree := places_eq_nil_iff.mp (List.map_eq_nil_iff.mp hleft)
      simpa [Layer.leaves, hfree] using ihr hinner
    · obtain ⟨inner, hinner, rfl⟩ := List.map_eq_singleton_iff.mp hleft
      have hfree := places_eq_nil_iff.mp (List.map_eq_nil_iff.mp hright)
      simpa [Layer.leaves, hfree] using ihl hinner

/-- The side with the only place of a variable, read from that place. -/
theorem plugAll_of_places {name : String} {e : Expr} {layers : List Layer}
    (h : e.places name = [layers]) : Layer.plugAll layers (.var name) = e :=
  plugAll_of_mem_places (h ▸ List.mem_singleton_self layers)

/-- Where the other operands are free of a variable, its only place is inside all of the layers. -/
theorem places_plugAll {name : String} {layers : List Layer}
    (h : ∀ layer ∈ layers, name ∉ layer.leaves) :
    (Layer.plugAll layers (.var name)).places name = [layers] := by
  induction layers with
  | nil => exact if_pos rfl
  | cons layer layers ih =>
    rw [List.forall_mem_cons] at h
    have hinner := ih h.2
    have hplug : Layer.plugAll (layer :: layers) (.var name) =
        layer.plug (Layer.plugAll layers (.var name)) := rfl
    rw [hplug]
    cases layer with
    | negation | call f => simp [Layer.plug, places, hinner]
    | leftOf op right => simp [Layer.plug, places, hinner, places_eq_nil_iff.mpr h.1]
    | rightOf left op => simp [Layer.plug, places, hinner, places_eq_nil_iff.mpr h.1]

theorem substitute_of_places {name : String} {e : Expr} {layers : List Layer}
    (h : e.places name = [layers]) (value : Expr) :
    e.substitute name value = Layer.plugAll layers value := by
  calc
    e.substitute name value = (Layer.plugAll layers (.var name)).substitute name value := by
      rw [plugAll_of_places h]
    _ = Layer.plugAll layers ((var name).substitute name value) :=
      Layer.substitute_plugAll (notMem_leaves_of_places h) _ _
    _ = Layer.plugAll layers value := by rw [substitute, if_pos rfl]

end Expr

namespace Equation

variable {left right : Expr} {name : String}

/-- What an arrangement comes from: one side has one place of the variable, and the other has
none. -/
theorem arrange_whole_eq_ok_iff {a : Arrangement} :
    (equality left right).arrange (.whole name) = .ok a ↔
      a.subject = name ∧
        ((left.places name = [a.layers] ∧ right.places name = [] ∧ a.known = right) ∨
          (left.places name = [] ∧ right.places name = [a.layers] ∧ a.known = left)) := by
  obtain ⟨subject, layers, known⟩ := a
  have hplaces (side : Side) (e : Expr) : (Census.whole name).places side e = e.places name := rfl
  have hsubject : (Census.whole name).subject = name := rfl
  simp only [arrange, hplaces, hsubject]
  split
  · next hleft hright => simp [hleft, hright, eq_comm]
  · next hleft hright => simp [hleft, hright, eq_comm]
  · next hleft hright => simp [hleft, hright]
  · next hone hother hnone =>
    simp only [reduceCtorEq, false_iff, not_and, not_or]
    exact fun _ ↦ ⟨fun hleft hright ↦ absurd hright (hone _ hleft),
      fun hleft hright ↦ absurd hright (hother _ hleft)⟩

theorem rearrange_eq_ok_iff {q : Equation} {census : Census} {formula : Expr} :
    q.rearrange census = .ok formula ↔
      ∃ a, q.arrange census = .ok a ∧ Layer.undoAll a.layers a.known = .ok formula := by
  have hsolve (a : Arrangement) :
      a.solve = .ok formula ↔ Layer.undoAll a.layers a.known = .ok formula := mapError_eq_ok_iff
  simp only [rearrange, bind_eq_ok_iff, hsolve]

/-- What a formula for a variable comes from: one side has one place of the variable, and undoing
the layers around it takes the other side to the formula. -/
theorem rearrange_whole_eq_ok_iff {formula : Expr} :
    (equality left right).rearrange (.whole name) = .ok formula ↔
      ∃ layers,
        (left.places name = [layers] ∧ right.places name = [] ∧
            Layer.undoAll layers right = .ok formula) ∨
          (left.places name = [] ∧ right.places name = [layers] ∧
            Layer.undoAll layers left = .ok formula) := by
  simp only [rearrange_eq_ok_iff, arrange_whole_eq_ok_iff]
  constructor
  · rintro ⟨a, ⟨-, ⟨hleft, hright, hknown⟩ | ⟨hleft, hright, hknown⟩⟩, hundo⟩
    · exact ⟨a.layers, .inl ⟨hleft, hright, hknown ▸ hundo⟩⟩
    · exact ⟨a.layers, .inr ⟨hleft, hright, hknown ▸ hundo⟩⟩
  · rintro ⟨layers, ⟨hleft, hright, hundo⟩ | ⟨hleft, hright, hundo⟩⟩
    · exact ⟨⟨name, layers, right⟩, ⟨rfl, .inl ⟨hleft, hright, rfl⟩⟩, hundo⟩
    · exact ⟨⟨name, layers, left⟩, ⟨rfl, .inr ⟨hleft, hright, rfl⟩⟩, hundo⟩

end Equation

end ClosedForm
