import ClosedForm.Proofs.Partition

/-!
# Exchanging the sides of an equation

An equation is arranged for a variable by the side that has it, wherever that side stands. So what
is found about a single variable stays the same if the sides are exchanged (`rearrange_comm`). What
changes is the order in which the variables first appear, and with it the order of the relations and
of the unsolvable variables (`relations_exchange`).
-/

namespace ClosedForm.Equation

variable (left right : Expr)

theorem arrange_comm (name : String) :
    (equality right left).arrange (.whole name) = (equality left right).arrange (.whole name) := by
  have hplaces (side : Side) (e : Expr) : (Census.whole name).places side e = e.places name := rfl
  simp only [arrange, hplaces]
  rcases left.places name with _ | ⟨layers, _ | ⟨second, more⟩⟩
  · rcases right.places name with _ | ⟨layers, _ | ⟨second, more⟩⟩ <;> rfl
  · rcases right.places name with _ | ⟨other, _ | ⟨second, more⟩⟩ <;> rfl
  · rcases right.places name with _ | ⟨other, _ | ⟨third, rest⟩⟩ <;> rfl

theorem rearrange_comm (name : String) :
    (equality right left).rearrange (.whole name) =
      (equality left right).rearrange (.whole name) := by
  rw [rearrange, arrange_comm, rearrange]

theorem isolate_comm (name : String) :
    (equality right left).isolate (.whole name) = (equality left right).isolate (.whole name) := by
  rw [isolate, rearrange_comm, isolate]

theorem isolable_comm (name : String) :
    (equality right left).Isolable name ↔ (equality left right).Isolable name := by
  rw [← exists_rearrange_iff, rearrange_comm, exists_rearrange_iff]

theorem vars_equality : (equality left right).vars = (left.leaves ++ right.leaves).eraseDups := by
  simp [vars, sides]

theorem vars_perm : (equality right left).vars.Perm (equality left right).vars := by
  apply (List.perm_ext_iff_of_nodup (nodup_vars _) (nodup_vars _)).mpr
  intro name
  simp only [vars_equality, List.mem_eraseDups, List.mem_append]
  exact or_comm

theorem toList_relations_exchange : (equality right left).relations.toList =
    (equality right left).vars.filterMap fun name ↦
      ((equality left right).isolate (.whole name)).toOption := by
  simp only [toList_relations, isolate_comm left right]

theorem unsolvable_relations_exchange :
    (equality right left).unsolvable (equality right left).relations =
      (equality right left).vars.filter fun name ↦ ¬(equality left right).Isolable name := by
  simp only [unsolvable_relations, isolable_comm left right]

/-- The sides of an equation may be exchanged: each variable keeps its formula or still has none, so
the relations are the same and so are the unsolvable variables. Both follow the order in which the
variables appear, the left side read before the right side. -/
theorem relations_exchange (left right : Expr) :
    let q := equality left right
    let exchanged := equality right left
    let names := (left.leaves ++ right.leaves).eraseDups
    let exchangedNames := (right.leaves ++ left.leaves).eraseDups
    let relation? (name : String) := (q.isolate (.whole name)).toOption
    (∀ name, exchanged.rearrange (.whole name) = q.rearrange (.whole name)) ∧
      exchanged.relations.toList.Perm q.relations.toList ∧
      q.relations.toList = names.filterMap relation? ∧
      exchanged.relations.toList = exchangedNames.filterMap relation? ∧
      (exchanged.unsolvable exchanged.relations).Perm (q.unsolvable q.relations) ∧
      q.unsolvable q.relations = names.filter (fun name ↦ ¬q.Isolable name) ∧
      exchanged.unsolvable exchanged.relations =
        exchangedNames.filter fun name ↦ ¬q.Isolable name := by
  intro q exchanged names exchangedNames relation?
  have hnames : q.vars = names := vars_equality left right
  have hexchangedNames : exchanged.vars = exchangedNames := vars_equality right left
  have hperm : exchanged.vars.Perm q.vars := vars_perm left right
  have hrelations := toList_relations_exchange left right
  have hunsolvable := unsolvable_relations_exchange left right
  rw [← hnames, ← hexchangedNames]
  refine ⟨rearrange_comm left right, ?_, q.toList_relations, hrelations, ?_,
    q.unsolvable_relations, hunsolvable⟩
  · rw [hrelations, q.toList_relations]
    exact hperm.filterMap relation?
  · rw [hunsolvable, q.unsolvable_relations]
    exact hperm.filter _

end ClosedForm.Equation
