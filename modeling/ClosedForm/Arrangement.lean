import ClosedForm.Census

/-!
# Isolating a variable

An arrangement reads an equation as its subject under layers on one side and a known expression on
the other. Each step undoes the outermost layer on both sides. When no layer is left the known
side is the formula for the subject.

An equation has an arrangement for a subject that stands in it once, and only then; the arrangement
is carried through unless one of its layers cannot be undone.
-/

namespace ClosedForm

/-- Why a variable cannot be isolated. -/
inductive Obstacle where
  /-- A bare expression equates its variables with nothing. -/
  | nothingEquated
  | absent
  | repeated
  | notInvertible (f : Fn)
  deriving DecidableEq

structure Arrangement where
  subject : String
  /-- The operations around the subject, outermost first. -/
  layers : List Layer
  known : Expr
  deriving DecidableEq

namespace Arrangement

/-- The side with the subject. -/
def hole (a : Arrangement) : Expr :=
  Layer.plugAll a.layers (.var a.subject)

/-- The known side once every layer is undone. -/
def solve (a : Arrangement) : Except Obstacle Expr :=
  (Layer.undoAll a.layers a.known).mapError .notInvertible

/-- The arrangements that follow from undoing one layer after the other, as far as that goes. -/
def steps (a : Arrangement) : List Arrangement :=
  go a.layers a.known
where
  go : List Layer → Expr → List Arrangement
    | [], _ => []
    | layer :: layers, known =>
      match layer.undo known with
      | .ok known => ⟨a.subject, layers, known⟩ :: go layers known
      | .error _ => []

end Arrangement

namespace Equation

/-- The arrangement of an equation for the one place of the subject that the census finds. -/
def arrange (q : Equation) (census : Census) : Except Obstacle Arrangement :=
  match q with
  | expression _ => .error .nothingEquated
  | equality left right =>
    match census.places .left left, census.places .right right with
    | [layers], [] => .ok ⟨census.subject, layers, right⟩
    | [], [layers] => .ok ⟨census.subject, layers, left⟩
    | [], [] => .error .absent
    | _, _ => .error .repeated

/-- The expression that the subject of the census equals. -/
def rearrange (q : Equation) (census : Census) : Except Obstacle Expr := do
  let a ← q.arrange census
  a.solve

end Equation

end ClosedForm
