import DocQuery.Filter.Basic
import DocQuery.Relation.Catalog
import DocQuery.Store.Basic

namespace DocQuery

namespace Reference

/-- Whether a document refers to an id by the field of a reference. -/
def refersTo (r : Reference) (d : Document) (id : String) : Bool :=
  Operator.eq.holds (d.field? r.field) (.text id)

/-- Whether the field of a reference is missing or null. -/
def isAbsentFrom (r : Reference) (d : Document) : Bool :=
  match d.field? r.field with
  | none | some .null => true
  | some _ => false

end Reference

namespace Clause

/-- Whether the condition on the existence of a target holds. Its literal says whether every field
    that may hold the reference is to be absent, or some field present. -/
def existenceHolds (candidates : List Reference) (value : Literal) (d : Document) : Bool :=
  match value.asBool with
  | some true => candidates.all fun r => r.isAbsentFrom d
  | some false => candidates.any fun r => !r.isAbsentFrom d
  | none => false

/-- Whether a condition at the end of a path holds, given the relations that the path walks from a
    document. Every document of a related collection is looked at. -/
def pathHolds (s : Store) (catalog : Catalog) (target : String) (op : Operator) (value : Literal) :
    List String → Document → Bool
  | [], d => op.holds (d.field? target) value
  | relation :: rest, d =>
    let candidates := catalog.candidates relation
    if rest = [] ∧ target = "" then existenceHolds candidates value d
    else candidates.any fun r => (s.documents r.target.name).any fun (_, t) =>
      pathHolds s catalog target op value rest t && r.refersTo d t.id

/-- Whether a clause holds of a document. -/
def holds (s : Store) (catalog : Catalog) (c : Clause) (d : Document) : Bool :=
  pathHolds s catalog c.path.target c.op c.value c.path.relations d

end Clause

namespace Filter

/-- Whether a document meets a filter: every required clause holds, and one of every group that has
    any. Resolving the filter is to give a predicate with this meaning. -/
def meets (s : Store) (catalog : Catalog) (f : Filter) (d : Document) : Bool :=
  f.holds fun c => c.holds s catalog d

end Filter

end DocQuery
