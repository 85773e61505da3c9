import ClosedForm.Equation
import ClosedForm.Layer
import ClosedForm.Occurrences

/-!
# Where a variable is looked for

A census counts one variable, its subject, in both sides of an equation or in one of them. What is
out of its scope counts as free of the subject.
-/

namespace ClosedForm

/-- A side of an equation; a bare expression is a left side. -/
inductive Side where
  | left
  | right
  deriving DecidableEq

inductive Scope where
  | whole
  | only (side : Side)
  deriving DecidableEq

def Scope.covers (scope : Scope) (side : Side) : Bool :=
  match scope with
  | whole => true
  | only covered => covered == side

structure Census where
  subject : String
  scope : Scope
  deriving DecidableEq

namespace Census

/-- Takes the whole equation into account. -/
def whole (subject : String) : Census :=
  ⟨subject, .whole⟩

def occurrences (census : Census) (side : Side) (e : Expr) : Occurrences :=
  if census.scope.covers side then e.occurrences census.subject else .none

def places (census : Census) (side : Side) (e : Expr) : List (List Layer) :=
  if census.scope.covers side then e.places census.subject else []

/-- For each side the counts of all its subexpressions, operands before operations. -/
def counts (census : Census) : Equation → List (List Occurrences)
  | .expression e => [e.subterms.map (census.occurrences .left)]
  | .equality left right =>
    [left.subterms.map (census.occurrences .left), right.subterms.map (census.occurrences .right)]

end Census

end ClosedForm
