import DocQuery.Store.Evaluation
import DocQuery.Store.Order

namespace DocQuery

/-- The documents of one collection, under their ids and ascending by them. -/
abbrev Documents := List (String × Document)

/-- Named collections of documents, ascending by name. -/
structure Store where
  collections : List (String × Documents)
deriving DecidableEq

/-- What a scan finds: the wanted part of the matching documents, and the number of all of them if
    it was asked for. -/
structure Found where
  documents : List Document
  total : Option Nat
deriving DecidableEq

namespace Store

/-- The store without collections. -/
def empty : Store := ⟨[]⟩

instance : Inhabited Store := ⟨empty⟩

/-- The documents of a collection. One that does not exist has none. -/
def documents (name : String) (s : Store) : Documents :=
  (Entries.get? name s.collections).getD []

/-- The document of an id in a collection. -/
def find? (collection id : String) (s : Store) : Option Document :=
  Entries.get? id (s.documents collection)

/-- The names of the collections. -/
def names (s : Store) : List String := Entries.names s.collections

/-- Makes a collection, if it does not exist yet. -/
def create (name : String) (s : Store) : Store :=
  ⟨Entries.insert name (s.documents name) s.collections⟩

/-- Adds documents one by one, up to the first whose id is taken. -/
def addDocuments (collection : String) :
    List Document → Documents → Documents × Except Failure Unit
  | [], present => (present, .ok ())
  | d :: rest, present =>
    if (Entries.get? d.id present).isSome then (present, .error (.duplicateId d.id collection))
    else addDocuments collection rest (Entries.insert d.id { d with collection } present)

/-- Inserts documents into a collection, which is made if it does not exist. When an id is taken,
    the documents before it stay inserted. -/
def insert (collection : String) (added : List Document) (s : Store) :
    Store × Except Failure Unit :=
  let (present, result) := addDocuments collection added (s.documents collection)
  (⟨Entries.insert collection present s.collections⟩, result)

/-- The documents of JSON objects, each with what it gets where it says nothing. -/
def readDocuments (collection : String) (values : List (Json × Fresh)) :
    Except Failure (List Document) :=
  values.mapM fun (value, fresh) =>
    (Document.ofJson collection value fresh).mapError Failure.invalidDocument

/-- Inserts JSON objects. When one of them is no document, the store stays as it was. -/
def insertJson (collection : String) (values : List (Json × Fresh)) (s : Store) :
    Store × Except Failure Unit :=
  match readDocuments collection values with
  | .error failure => (s, .error failure)
  | .ok added => s.insert collection added

/-- Fills a new store: first with documents, then with JSON objects. Every collection that is named
    exists afterwards, whether it has documents or not. -/
def build (given : List (String × List Document))
    (values : List (String × List (Json × Fresh))) :
    Except Failure Store := do
  let filled ← given.foldlM (fun (s : Store) (collection, added) =>
    let (s, result) := (s.create collection).insert collection added
    result.map fun _ => s) empty
  values.foldlM (fun (s : Store) (collection, added) =>
    let (s, result) := (s.create collection).insertJson collection added
    result.map fun _ => s) filled

/-- The documents of the given ids, in the order of the ids. Ids that are not taken are left out. -/
def fetch (collection : String) (ids : List String) (s : Store) : List Document :=
  ids.filterMap fun id => s.find? collection id

/-- The documents of a collection that a filter accepts, in the order of a scan. Documents that no
    key tells apart keep the order of their ids. -/
def matching (collection : String) (scan : Scan) (s : Store) : List Document :=
  let all := (s.documents collection).map (·.2)
  let accepted := match scan.filter with
    | some filter => all.filter fun d => filter.accepts d
    | none => all
  accepted.mergeSort fun a b => (Document.order scan.sort a b).isLE

/-- Scans a collection: the matching documents after an offset, up to a limit. -/
def scan (collection : String) (scan : Scan) (s : Store) : Found :=
  let found := s.matching collection scan
  let rest := found.drop scan.offset
  { documents := match scan.limit with
      | some limit => rest.take limit
      | none => rest
    total := if scan.countTotal then some found.length else none }

end Store

end DocQuery
