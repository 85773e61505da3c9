import ClosedForm.Json

/-!
# Relations

A relation says that a variable can be computed by a formula. The relations found for an equation
are kept in the order of arrival, each once; relations with the same subject and different
formulas are different.
-/

namespace ClosedForm

structure Relation where
  subject : String
  formula : String
  deriving DecidableEq

namespace Relation

def render (r : Relation) : String :=
  r.subject ++ " = " ++ r.formula

instance : ToString Relation := ⟨render⟩

def json (r : Relation) : String :=
  Json.object [("variable", Json.string r.subject), ("expression", Json.string r.formula)]

end Relation

structure Relations where
  /-- In order of arrival. -/
  toList : List Relation
  nodup : toList.Nodup
  deriving DecidableEq

namespace Relations

def empty : Relations :=
  ⟨[], List.nodup_nil⟩

instance : EmptyCollection Relations := ⟨empty⟩

instance : Membership Relation Relations := ⟨fun rs r ↦ r ∈ rs.toList⟩

theorem nodup_append_singleton {rs : List Relation} {r : Relation} (hnodup : rs.Nodup)
    (hr : r ∉ rs) : (rs ++ [r]).Nodup := by
  refine List.nodup_append.mpr ⟨hnodup, by simp, ?_⟩
  rintro a ha b hb rfl
  exact hr (List.mem_singleton.mp hb ▸ ha)

/-- Adds a relation at the end; none if it is there already. -/
def insert? (rs : Relations) (r : Relation) : Option Relations :=
  if h : r ∈ rs.toList then none else some ⟨rs.toList ++ [r], nodup_append_singleton rs.nodup h⟩

def insert (rs : Relations) (r : Relation) : Relations :=
  (rs.insert? r).getD rs

theorem toList_insert (rs : Relations) (r : Relation) :
    (rs.insert r).toList = if r ∈ rs.toList then rs.toList else rs.toList ++ [r] := by
  unfold insert insert?
  split <;> simp_all

def extend (rs : Relations) (more : List Relation) : Relations :=
  more.foldl insert rs

def ofList (relations : List Relation) : Relations :=
  empty.extend relations

def size (rs : Relations) : Nat :=
  rs.toList.length

def isEmpty (rs : Relations) : Bool :=
  rs.toList.isEmpty

/-- The relation that arrived first for a variable. -/
def get? (rs : Relations) (subject : String) : Option Relation :=
  rs.toList.find? fun r ↦ r.subject == subject

def hasSubject (rs : Relations) (subject : String) : Bool :=
  (rs.get? subject).isSome

def json (rs : Relations) : String :=
  Json.array (rs.toList.map Relation.json)

end Relations

end ClosedForm
