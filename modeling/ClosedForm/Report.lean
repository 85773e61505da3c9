import ClosedForm.Solution

/-!
# Reports

A report is what there is to say about one given equation: the text it was given as, its relations
and the variables left without one. It can be written as indented text or as one line of JSON.
-/

namespace ClosedForm

structure Report where
  /-- The equation as it was given. -/
  given : String
  relations : Relations
  unsolved : List String

namespace Report

/-- Solves the equation written in a text. -/
def ofText (text : String) : Except SyntaxError Report :=
  (Equation.parse text).map fun q ↦ ⟨text, q.relations, q.unsolvable q.relations⟩

def json (report : Report) : String :=
  Json.object [("equation", Json.string report.given), ("relations", report.relations.json)]

/-- The equation, and below it the relations, indented by two spaces. -/
def lines (report : Report) : List String :=
  report.given :: report.relations.toList.map fun r ↦ "  " ++ r.render

/-- One complaint for each variable without a relation. -/
def complaints (report : Report) : List String :=
  report.unsolved.map fun name ↦
    "Unable to isolate \"" ++ name ++ "\" in \"" ++ report.given ++ "\""

end Report

end ClosedForm
