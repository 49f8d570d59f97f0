import DocQuery.Engine.Backend
import DocQuery.Filter.Basic
import DocQuery.Relation.Catalog

/-!
Filters with their relations resolved. A clause on a field of a related document is answered by a
look-up in the collection that the relation leads to, and then put as a membership test on the field
that holds the reference:

  author.role = admin   becomes   author_id in ids, or author_ids overlaps ids

where `ids` are those of the documents with that role. What is left is a predicate on the fields of
one document.
-/
namespace DocQuery

/-- A predicate that stands for a clause or a filter, and what callers should know about it. -/
structure Resolved where
  predicate : Predicate
  warnings : List Warning

namespace Clause

/-- Whether a clause may be resolved at all. An existence path takes `isnull` only, and the look-ups
    of a path are limited. -/
def check (config : Config) (c : Clause) : Except Failure Unit :=
  if c.path.isExistence ∧ c.op ≠ .isNull then
    .error (.malformed (.existenceOperator c.path.text c.op))
  else if config.maxFilterDepth < c.path.hops then
    .error (.tooDeep c.path.text c.path.hops config.maxFilterDepth)
  else .ok ()

/-- The test for the existence of a target. A relation is absent when every field that may hold it
    is, and present when some field is. -/
def existence (candidates : List Reference) (relation : String) (value : Literal) :
    Except Failure Predicate :=
  let tests (isNull : Bool) : List Predicate :=
    candidates.map fun r => .test r.field .isNull (.bool isNull)
  match value.asBool with
  | some true => .ok (.all (tests true))
  | some false => .ok (.any (tests false))
  | none => .error (.malformed (.existenceNotBoolean (Text.joinDots [relation, ""])))

/-- The ids of all documents of a collection that a predicate accepts, ascending. -/
def acceptedIds (collection : String) (p : Predicate) : Reading (List String) := do
  let found ← Reading.scan collection {
    filter := some p
    sort := [⟨Document.idField, .ascending⟩]
    limit := none
    offset := 0
    countTotal := false }
  return found.documents.map Document.id

/-- The ids that were found for a target. -/
def idsFor (found : List (Target × List String)) (t : Target) : List String :=
  (found.lookup t).getD []

/-- The test that a reference field holds one of some ids. -/
def membership (found : List (Target × List String)) (r : Reference) : Predicate :=
  let op := match r.cardinality with
    | .single => Operator.isIn
    | .many => Operator.overlaps
  .test r.field op (.list ((idsFor found r.target).map .text))

/-- Resolves a path, given the relations it walks. The condition on the last document is resolved
    first, and each relation then takes one look-up for each target it may lead to. -/
def resolvePath (catalog : Catalog) (target : String) (op : Operator) (value : Literal) :
    List String → Reading Resolved
  | [] => pure ⟨.test target op value, []⟩
  | relation :: rest => do
    let candidates := catalog.candidates relation
    if rest = [] ∧ target = "" then
      return ⟨← existence candidates relation value, []⟩
    let inner ← resolvePath catalog target op value rest
    let found ← (Sorted.ofList (candidates.map Reference.target)).mapM fun t => do
      return (t, ← acceptedIds t.name inner.predicate)
    return ⟨.any (candidates.map (membership found)),
      Warning.merge (Reference.warnings candidates) inner.warnings⟩

/-- Resolves a clause. -/
def resolve (catalog : Catalog) (c : Clause) : Reading Resolved :=
  resolvePath catalog c.path.target c.op c.value c.path.relations

end Clause

namespace Filter

/-- Checks every clause. The first that may not be resolved counts. -/
def check (config : Config) (f : Filter) : Except Failure Unit :=
  f.clauses.forM (Clause.check config)

/-- Resolves a filter after checking all of it. A filter without clauses has no predicate, as it
    accepts every document. -/
def resolve (config : Config) (catalog : Catalog) (f : Filter) :
    Reading (Option Predicate × List Warning) := do
  f.check config
  if f.isEmpty then return (none, [])
  let required ← f.required.mapM (Clause.resolve catalog)
  let groups ← (f.groups.filter fun g => !g.2.isEmpty).mapM fun g =>
    g.2.mapM (Clause.resolve catalog)
  let warnings := (required ++ groups.flatten).foldl (fun ws r => Warning.merge ws r.warnings) []
  let parts := required.map Resolved.predicate ++
    groups.map fun members => .any (members.map Resolved.predicate)
  return (some (Predicate.all parts).simplify, warnings)

end Filter

end DocQuery
