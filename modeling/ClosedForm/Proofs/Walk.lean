import ClosedForm.Proofs.Isolable

/-!
# Walking by counts

A formula can also be found without listing the places of the variable: walk down the side that
counts it once, at an operation with two operands into the one that counts it once, and undo each
operation on the other side in passing. Such a walk would come to nothing at a leaf that is not the
variable, but the counts never lead it there: it finds what rearranging finds and fails for the same
obstacles (`walk_eq`). So exactly the isolable variables are isolated (`isolates_iff_isolable`).
-/

namespace ClosedForm

theorem Occurrences.ofCount_eq_once_iff {n : Nat} : ofCount n = once ↔ n = 1 := by
  match n with
  | 0 | 1 => simp [ofCount]
  | n + 2 => simp [ofCount]

/-- Why a walk finds no formula. -/
inductive Halt where
  | obstacle (obstacle : Obstacle)
  /-- The walk has come down to a leaf other than the subject. -/
  | foreignLeaf (leaf : Expr)
  deriving DecidableEq

def Halt.notInvertible (f : Fn) : Halt :=
  obstacle (.notInvertible f)

theorem Arrangement.mapError_solve (a : Arrangement) :
    a.solve.mapError Halt.obstacle =
      (Layer.undoAll a.layers a.known).mapError Halt.notInvertible := by
  unfold solve
  cases Layer.undoAll a.layers a.known <;> rfl

/-- Undoing all layers goes like the walk, one layer at a time. -/
theorem Layer.mapError_undoAll_cons (layer : Layer) (layers : List Layer) (known : Expr) :
    (undoAll (layer :: layers) known).mapError Halt.notInvertible =
      (layer.undo known).mapError Halt.notInvertible >>= fun next ↦
        (undoAll layers next).mapError Halt.notInvertible := by
  rw [undoAll]
  cases layer.undo known with
  | ok next | error f => rfl

namespace Census

/-- Walks from the root of a side to the subject, undoing what it passes on the known side. -/
def descend (census : Census) (side : Side) (hole known : Expr) : Except Halt Expr :=
  match hole with
  | .number text => .error (.foreignLeaf (.number text))
  | .var other =>
    if other = census.subject then .ok known else .error (.foreignLeaf (.var other))
  | .unary .negate operand => do
    let known ← (Layer.negation.undo known).mapError .notInvertible
    census.descend side operand known
  | .unary (.call f) operand => do
    let known ← ((Layer.call f).undo known).mapError .notInvertible
    census.descend side operand known
  | .binary op left right =>
    if census.occurrences side left = .once then do
      let known ← ((Layer.leftOf op right).undo known).mapError .notInvertible
      census.descend side left known
    else do
      let known ← ((Layer.rightOf left op).undo known).mapError .notInvertible
      census.descend side right known

theorem occurrences_eq_ofCount (census : Census) (side : Side) (e : Expr) :
    census.occurrences side e = .ofCount (census.places side e).length := by
  unfold occurrences places
  split
  · rw [Expr.occurrences_eq, Expr.length_places]
  · rfl

theorem places_eq_singleton_iff {census : Census} {side : Side} {e : Expr} {layers : List Layer} :
    census.places side e = [layers] ↔
      census.scope.covers side = true ∧ e.places census.subject = [layers] := by
  unfold places
  split <;> simp [*]

/-- The count of the left operand tells which operand holds the only place. -/
theorem turn_of_places {census : Census} {side : Side} (hcovers : census.scope.covers side = true)
    {op : BinaryOp} {left right : Expr} {layers : List Layer}
    (hplace : (Expr.binary op left right).places census.subject = [layers]) :
    (census.occurrences side left = .once ∧
        ∃ inner, left.places census.subject = [inner] ∧ layers = .leftOf op right :: inner) ∨
      (census.occurrences side left ≠ .once ∧
        ∃ inner, right.places census.subject = [inner] ∧ layers = .rightOf left op :: inner) := by
  have honce : census.occurrences side left = .once ↔
      (left.places census.subject).length = 1 := by
    rw [occurrences_eq_ofCount, Occurrences.ofCount_eq_once_iff, places, if_pos hcovers]
  rcases List.append_eq_singleton_iff.mp hplace with ⟨hleft, hright⟩ | ⟨hleft, hright⟩
  · obtain ⟨inner, hinner, rfl⟩ := List.map_eq_singleton_iff.mp hright
    refine .inr ⟨?_, inner, hinner, rfl⟩
    rw [ne_eq, honce, List.map_eq_nil_iff.mp hleft]
    simp
  · obtain ⟨inner, hinner, rfl⟩ := List.map_eq_singleton_iff.mp hleft
    exact .inl ⟨by simp [honce, hinner], inner, hinner, rfl⟩

/-- On a side with one place of the subject the walk goes through the layers of that place. -/
theorem descend_eq {census : Census} {side : Side} (hcovers : census.scope.covers side = true)
    {e : Expr} {layers : List Layer} (hplace : e.places census.subject = [layers]) (known : Expr) :
    census.descend side e known = (Layer.undoAll layers known).mapError .notInvertible := by
  induction e generalizing layers known with
  | number text => cases hplace
  | var other =>
    rw [Expr.places] at hplace
    split at hplace
    · next hsubject =>
      obtain rfl := List.singleton_inj.mp hplace
      rw [descend, if_pos hsubject]
      rfl
    · cases hplace
  | unary op operand ih =>
    cases op with
    | negate | call f =>
      obtain ⟨inner, hinner, rfl⟩ := List.map_eq_singleton_iff.mp hplace
      rw [Layer.mapError_undoAll_cons, descend]
      simp only [ih hinner]
  | binary op left right ihl ihr =>
    rcases turn_of_places hcovers hplace with
      ⟨honce, inner, hinner, rfl⟩ | ⟨honce, inner, hinner, rfl⟩
    · rw [Layer.mapError_undoAll_cons, descend, if_pos honce]
      simp only [ihl hinner]
    · rw [Layer.mapError_undoAll_cons, descend, if_neg honce]
      simp only [ihr hinner]

end Census

namespace Equation

/-- The formula for the subject of the census, found by walking down the side that counts it. -/
def walk (q : Equation) (census : Census) : Except Halt Expr :=
  match q with
  | expression _ => .error (.obstacle .nothingEquated)
  | equality left right =>
    match census.occurrences .left left, census.occurrences .right right with
    | .once, .none => census.descend .left left right
    | .none, .once => census.descend .right right left
    | .none, .none => .error (.obstacle .absent)
    | _, _ => .error (.obstacle .repeated)

/-- Walking and rearranging find the same formula and fail for the same obstacles. -/
theorem walk_eq (q : Equation) (census : Census) :
    q.walk census = (q.rearrange census).mapError .obstacle := by
  cases q with
  | expression e => rfl
  | equality left right =>
    simp only [walk, rearrange, arrange, Census.occurrences_eq_ofCount]
    rcases hleft : census.places .left left with _ | ⟨layers, _ | ⟨second, more⟩⟩
    · rcases hright : census.places .right right with _ | ⟨layers, _ | ⟨second, more⟩⟩
      · rfl
      · obtain ⟨hcovers, hplace⟩ := Census.places_eq_singleton_iff.mp hright
        calc
          census.descend .right right left = _ := Census.descend_eq hcovers hplace left
          _ = _ := (Arrangement.mapError_solve ⟨census.subject, layers, left⟩).symm
      · rfl
    · rcases census.places .right right with _ | ⟨other, _ | ⟨second, more⟩⟩
      · obtain ⟨hcovers, hplace⟩ := Census.places_eq_singleton_iff.mp hleft
        calc
          census.descend .left left right = _ := Census.descend_eq hcovers hplace right
          _ = _ := (Arrangement.mapError_solve ⟨census.subject, layers, right⟩).symm
      · rfl
      · rfl
    · rcases census.places .right right with _ | ⟨other, _ | ⟨third, more⟩⟩ <;> rfl

/-- The isolable variables are isolated and no others, and the walk to them never ends at a foreign
leaf. -/
theorem isolates_iff_isolable (q : Equation) (name : String) :
    ((∃ formula, q.rearrange (.whole name) = .ok formula) ↔ q.Isolable name) ∧
      ((∃ r, q.isolate (.whole name) = .ok r) ↔ q.Isolable name) ∧
      q.walk (.whole name) = (q.rearrange (.whole name)).mapError .obstacle ∧
      ∀ leaf, q.walk (.whole name) ≠ .error (.foreignLeaf leaf) := by
  refine ⟨exists_rearrange_iff, exists_isolate_iff, q.walk_eq _, fun leaf hwalk ↦ ?_⟩
  rw [walk_eq] at hwalk
  cases hresult : q.rearrange (.whole name) with
  | ok formula | error obstacle =>
    rw [hresult] at hwalk
    cases hwalk

end Equation

end ClosedForm
