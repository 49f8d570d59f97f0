import DocQuery.Entries
import DocQuery.Failure
import DocQuery.Time.Reader

namespace DocQuery

/-- One record of a collection. -/
structure Document where
  id : String
  /-- The name of the collection it belongs to. -/
  collection : String
  data : List (String × Json)
  created : Instant
  updated : Instant
deriving DecidableEq

/-- What a document gets where its object says nothing. -/
structure Fresh where
  id : String
  now : Instant

namespace Document

/-- The member that shows the id. -/
def idField : String := "id"

/-- The member that shows when the document was made. -/
def createdField : String := "created_at"

/-- The member that shows when the document was changed last. -/
def updatedField : String := "updated_at"

/-- Reads an instant from a member. A member that is null counts as missing. -/
def readInstant? (key : String) (members : List (String × Json)) :
    Except DocumentError (Option Instant) :=
  match Entries.get? key members with
  | none | some .null => .ok none
  | some (.str raw) =>
    match Instant.readRfc3339? raw with
    | some t => .ok (some t)
    | none => .error (.badInstant key raw)
  | some other => .error (.instantNotText key other)

/-- Reads the id from a member, if there is one. -/
def readId? (members : List (String × Json)) : Except DocumentError (Option String) :=
  match Entries.get? idField members with
  | none => .ok none
  | some (.str id) => .ok (some id)
  | some other => .error (.badId other)

/-- The members that are data. The id and the instants leave them one after the other, and each time
    the last member closes the gap. -/
def dataMembers (members : List (String × Json)) : List (String × Json) :=
  Entries.swapErase updatedField
    (Entries.swapErase createdField (Entries.swapErase idField members))

/-- The document of a JSON object. The members for the id and the instants leave the data; a missing
    id is fresh, a missing instant is now, and a missing last change is the making. Of several
    faults that of the id comes first, then that of the making. -/
def ofJson (collection : String) (value : Json) (fresh : Fresh) : Except DocumentError Document :=
  match value with
  | .obj members => do
    let id ← readId? members
    let created ← readInstant? createdField members
    let updated ← readInstant? updatedField members
    return {
      id := id.getD fresh.id
      collection
      data := dataMembers members
      created := created.getD fresh.now
      updated := (updated <|> created).getD fresh.now }
  | _ => .error .notObject

/-- The value of a field. The id and the instants come before data of the same name. -/
def field? (name : String) (d : Document) : Option Json :=
  if name = idField then some (.str d.id)
  else if name = createdField then some (.str d.created.text)
  else if name = updatedField then some (.str d.updated.text)
  else Entries.get? name d.data

/-- The members of the flat form. -/
def entityMembers (d : Document) : List (String × Json) :=
  Entries.set updatedField (.str d.updated.text)
    (Entries.set createdField (.str d.created.text) (Entries.set idField (.str d.id) d.data))

/-- The flat form, which shows the id and the instants as members beside the data. -/
def entity (d : Document) : Json := .obj d.entityMembers

end Document

end DocQuery
