import DocQuery.Engine.Backend
import DocQuery.NameTree
import DocQuery.Query.Chain
import DocQuery.Relation.Catalog

/-!
Hydration: the documents that a relation refers to are written beside the reference, under the name
of the relation. `hydrate` says what is written, given a way to find documents. `gather` finds them
level by level, with one read for each target of a level and none for documents already found.
-/
namespace DocQuery

namespace Hydration

/-- The relations to hydrate: the beginnings of chains, up to a length. There is a warning for each
    chain that is longer. -/
def tree (chains : List Chain) (max : Nat) : NameTree × List Warning :=
  (NameTree.ofPaths (chains.map fun c => c.relations.take max),
    Warning.merge [] ((chains.filter fun c => max < c.depth).map fun c => .chainTooLong c.text max))

/-- The id that a value refers to. A number refers to the id of its text. -/
def idOf? : Json → Option String
  | .str id => some id
  | .num n => some n.text
  | _ => none

/-- The ids that the value of a reference field refers to. -/
def idsOf : Json → List String
  | .arr items => items.filterMap idOf?
  | value => (idOf? value).toList

/-- The reference that a document holds for a relation: the first of several fields that the
    document has, and the ids in it. -/
def referenceOf? (candidates : List Reference) (d : Document) :
    Option (Reference × List String) :=
  candidates.findSome? fun r => (Entries.get? r.field d.data).map fun value => (r, idsOf value)

/-- What is written for a relation. A single reference gives the first document found or null, and
    any other gives an array. -/
def relationValue (cardinality : Cardinality) (entities : List Json) : Json :=
  match cardinality with
  | .single => entities.head?.getD .null
  | .many => .arr entities

mutual

/-- A document with the relations of a tree written into its data, found documents hydrated in the
    same way. References are taken from the document as it was. -/
def hydrate (catalog : Catalog) (find? : Target → String → Option Document) :
    NameTree → Document → Document
  | .node children, d => { d with data := hydrateEach catalog find? children d d.data }

/-- The data of a document with several relations written into it, one after the other. -/
def hydrateEach (catalog : Catalog) (find? : Target → String → Option Document) :
    List (String × NameTree) → Document → List (String × Json) → List (String × Json)
  | [], _, data => data
  | (relation, child) :: rest, d, data =>
    match referenceOf? (catalog.candidates relation) d with
    | none => hydrateEach catalog find? rest d data
    | some (r, ids) =>
      let entities := ids.filterMap fun id =>
        (find? r.target id).map fun found => (hydrate catalog find? child found).entity
      hydrateEach catalog find? rest d
        (Entries.set (Catalog.relationName relation) (relationValue r.cardinality entities) data)

end

/-- Documents that were found, each with the target it was found for. -/
abbrev Cache := List (Target × Document)

/-- The cached document of an id. -/
def Cache.find? (cache : Cache) (t : Target) (id : String) : Option Document :=
  (List.find? (fun entry => entry.1 = t ∧ entry.2.id = id) cache).map (·.2)

/-- Documents at the same place of the tree. -/
structure Branch where
  tree : NameTree
  documents : List Document

/-- The documents that a relation leads to from a branch, yet to be found. -/
structure Edge where
  tree : NameTree
  references : List (Target × String)
  warnings : List Warning

/-- The edge of one relation of a branch. -/
def Branch.edge (catalog : Catalog) (documents : List Document) (relation : String)
    (tree : NameTree) : Edge :=
  let held := documents.filterMap (referenceOf? (catalog.candidates relation))
  { tree
    references := held.flatMap fun (r, ids) => ids.map (r.target, ·)
    warnings := held.filterMap fun (r, _) => r.warning? }

/-- The edges of a branch, by the names of its relations. -/
def Branch.edges (catalog : Catalog) (b : Branch) : List Edge :=
  b.tree.children.map fun (relation, child) => edge catalog b.documents relation child

/-- The references that edges follow and the cache does not answer. -/
def wanted (cache : Cache) (edges : List Edge) : List (Target × String) :=
  (edges.flatMap Edge.references).filter fun (t, id) => (cache.find? t id).isNone

/-- The ids that are wanted of a target, each once and ascending. -/
def wantedIds (references : List (Target × String)) (t : Target) : List String :=
  Sorted.ofList ((references.filter fun (target, _) => target = t).map (·.2))

/-- Reads the wanted documents, target by target, and caches them. -/
def fetchWanted (references : List (Target × String)) (cache : Cache) : Reading Cache :=
  (Sorted.ofList (references.map (·.1))).foldlM
    (fun cache t => do
      let found ← Reading.fetch t.name (wantedIds references t)
      return found.foldl (fun cache d => (t, d) :: cache) cache)
    cache

/-- The documents found along an edge, each once, if there is more to follow from them. -/
def Edge.branch? (cache : Cache) (e : Edge) : Option Branch :=
  let documents := e.references.eraseDups.filterMap fun (t, id) => cache.find? t id
  if e.tree.isEmpty || documents.isEmpty then none else some ⟨e.tree, documents⟩

/-- Finds documents level by level, starting from branches, until there is nothing to follow. The
    height of the tree bounds the levels. -/
def gather (catalog : Catalog) :
    Nat → List Branch → Cache → List Warning → Reading (Cache × List Warning)
  | 0, _, cache, warnings => pure (cache, warnings)
  | _, [], cache, warnings => pure (cache, warnings)
  | levels + 1, branches, cache, warnings => do
    let edges := branches.flatMap (Branch.edges catalog)
    let cache ← fetchWanted (wanted cache edges) cache
    gather catalog levels (edges.filterMap (Edge.branch? cache)) cache
      (Warning.merge warnings (edges.flatMap Edge.warnings))

/-- Hydrates documents along chains of relations, in their order. A reference to a document that
    does not exist is no failure. -/
def run (config : Config) (catalog : Catalog) (chains : List Chain) (documents : List Document) :
    Reading (List Document × List Warning) := do
  let (tree, warnings) := tree chains config.maxHydrationDepth
  if tree.isEmpty || documents.isEmpty then return (documents, warnings)
  let (cache, warnings) ← gather catalog tree.height [⟨tree, documents⟩] [] warnings
  return (documents.map (hydrate catalog cache.find? tree), warnings)

end Hydration

end DocQuery
