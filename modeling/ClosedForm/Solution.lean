import ClosedForm.Arrangement
import ClosedForm.Log
import ClosedForm.Reader
import ClosedForm.Relation
import ClosedForm.Text.WhiteSpace

/-!
# Solving an equation for its variables

Every variable that can be isolated has one relation, in the order in which the variables appear;
the others are left out. Beside each result stands the log that explains it: a step by step
account of the rearrangement, or the reason why there is none.
-/

namespace ClosedForm

open Log (Event)

/-- The reason in words, for a subject in an equation. -/
def Obstacle.message (subject : String) (q : Equation) : Obstacle → String
  | nothingEquated => "\"" ++ subject ++ "\" has nothing to be equated with"
  | absent => "\"" ++ subject ++ "\" isn't in \"" ++ q.render ++ "\""
  | repeated => "Unable to isolate \"" ++ subject ++ "\" because it is used more than once"
  | notInvertible f =>
    "Unable to isolate \"" ++ subject ++ "\" because " ++ f.name ++ "() can't be inverted"

def Arrangement.event (a : Arrangement) : Event :=
  Log.trace ("Rearranged to " ++ a.hole.render ++ " = " ++ a.known.render)

namespace Equation

/-- The relation of the subject of the census, with the formula written out. -/
def isolate (q : Equation) (census : Census) : Except Obstacle Relation :=
  (q.rearrange census).map fun formula ↦ ⟨census.subject, formula.render⟩

/-- The account of `rearrange`. -/
def rearrangeLog (q : Equation) (census : Census) : List Event :=
  let steps :=
    match q.arrange census with
    | .ok a => a.steps.map Arrangement.event
    | .error _ => []
  match q.rearrange census with
  | .ok _ => steps
  | .error obstacle => steps ++ [Log.debug (obstacle.message census.subject q)]

def relations (q : Equation) : Relations :=
  .ofList (q.vars.filterMap fun name ↦ (q.isolate (.whole name)).toOption)

/-- The account of `relations`, one block a variable. -/
def relationsLog (q : Equation) : List Event :=
  q.vars.flatMap fun name ↦
    match q.isolate (.whole name) with
    | .ok _ => q.rearrangeLog (.whole name)
    | .error _ => q.rearrangeLog (.whole name) ++ [Log.debug ("No relation for \"" ++ name ++ "\"")]

/-- The variables that have no relation among the given ones. -/
def unsolvable (q : Equation) (found : Relations) : List String :=
  q.vars.filter fun name ↦ !found.hasSubject name

end Equation

/-- The relations of the equation written in a text. -/
def solve (text : String) : Except SyntaxError Relations :=
  (Equation.parse text).map Equation.relations

/-- The account of `solve`; a text that is no equation leaves none. -/
def solveLog (text : String) : List Event :=
  match Equation.parse text with
  | .error _ => []
  | .ok q =>
    q.relationsLog ++
      [Log.debug ("Found " ++ toString q.relations.size ++ " relations for \"" ++ Text.trim text ++
        "\"")]

end ClosedForm
