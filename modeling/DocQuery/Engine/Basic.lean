import DocQuery.Filter.Resolved
import DocQuery.Hydration
import DocQuery.Query.Params
import DocQuery.Selection

namespace DocQuery

/-- One page of documents. -/
structure Answer where
  documents : List Document
  /-- The number of all matching documents, if it was asked for. -/
  total : Option Nat
  /-- The page size that was used. -/
  limit : Nat
  offset : Nat
  /-- Whether there are documents after the page. -/
  hasMore : Bool
  warnings : List Warning

namespace Query

/-- The order of a query. It ends in the id, so that no two documents are alike. -/
def sortKeys (q : Query) : List SortKey :=
  match q.sort with
  | none => [⟨Document.idField, q.direction⟩]
  | some field =>
    if field = Document.idField then [⟨Document.idField, q.direction⟩]
    else [⟨field, q.direction⟩, ⟨Document.idField, .ascending⟩]

/-- The scan for the page of a query. It asks for one document past the page, to tell whether there
    are more. -/
def scan (config : Config) (q : Query) (predicate : Option Predicate) : Scan where
  filter := predicate
  sort := q.sortKeys
  limit := some (min (config.clampLimit q.limit + 1) Config.maxCount)
  offset := q.offset
  countTotal := q.countTotal

/-- Whether relations have to be resolved. -/
def needsCatalog (q : Query) : Bool :=
  q.filter.clauses.any (fun c => !c.path.isDirect) || !q.chains.isEmpty

end Query

namespace Engine

/-- The catalog of the collections that exist now. -/
def catalog (config : Config) : Reading Catalog := do
  return ⟨config.users, ← Reading.list⟩

/-- The catalog for a query. One that needs no relations does without reading the collections. -/
def catalogFor (config : Config) (q : Query) : Reading Catalog :=
  if q.needsCatalog then catalog config else pure ⟨config.users, []⟩

/-- The names under which the relations of chains are written into the documents of a page. -/
def hydratedNames (config : Config) (chains : List Chain) : List String :=
  (Hydration.tree chains config.maxHydrationDepth).1.children.map fun (relation, _) =>
    Catalog.relationName relation

/-- Answers a query: its filter is resolved, one page of the matching documents read, the page
    hydrated, and the selected fields kept. -/
def run (config : Config) (q : Query) : Reading Answer := do
  let catalog ← catalogFor config q
  let (predicate, warnings) ← q.filter.resolve config catalog
  let found ← Reading.scan q.collection (q.scan config predicate)
  let limit := config.clampLimit q.limit
  let (documents, more) ←
    Hydration.run config catalog q.chains (found.documents.take limit)
  let documents := match q.select with
    | some fields => documents.map (Selection.project fields (hydratedNames config q.chains))
    | none => documents
  return {
    documents
    total := found.total
    limit
    offset := q.offset
    hasMore := limit < found.documents.length
    warnings := Warning.merge warnings more }

/-- Answers a query given by text pairs. -/
def runPairs (config : Config) (collection : String) (pairs : List (String × String)) :
    Reading Answer := do
  let query : Except RequestError Query := do
    (← Params.parse pairs).toQuery collection config
  run config (← query.mapError Failure.malformed)

/-- Answers a query given by the members of a JSON object. -/
def runJson (config : Config) (collection : String) (members : List (String × Json)) :
    Reading Answer := do
  let query : Except RequestError Query := do
    (← Params.parseJson members).toQuery collection config
  run config (← query.mapError Failure.malformed)

/-- Fetches documents by their ids, in the order of the ids, and hydrates them. Ids that do not
    exist are left out. -/
def get (config : Config) (collection : String) (ids : List String) (chains : List Chain) :
    Reading (List Document) := do
  let documents ← Reading.fetch collection ids
  if chains.isEmpty then return documents
  let catalog ← catalog config
  let (documents, _) ← Hydration.run config catalog chains documents
  return documents

/-- Fetches one document by its id, and hydrates it. -/
def getOne (config : Config) (collection : String) (id : String) (chains : List Chain) :
    Reading (Option Document) := do
  return (← get config collection [id] chains).head?

end Engine

end DocQuery
