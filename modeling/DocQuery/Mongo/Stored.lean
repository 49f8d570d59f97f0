import DocQuery.Document.Basic
import DocQuery.Mongo.Key

namespace DocQuery.Mongo.Stored

mutual

/-- The stored form of a value. Integers have to fit in 64 signed bits. -/
def ofJson : Json → Except ShapeError Bson
  | .null => .ok .null
  | .bool b => .ok (.bool b)
  | .num (.int value _) =>
    if value < 0x8000000000000000 then .ok (.int64 (Int64.ofInt value))
      else .error (.integerTooLarge value)
  | .num (.real value _) => .ok (.double value)
  | .str s => .ok (.str s)
  | .arr items => (ofJsonItems items).map .arr
  | .obj members => (ofJsonMembers members).map .doc

@[inherit_doc ofJson]
def ofJsonItems : List Json → Except ShapeError (List Bson)
  | [] => .ok []
  | item :: rest => do return (← ofJson item) :: (← ofJsonItems rest)

@[inherit_doc ofJson]
def ofJsonMembers : List (String × Json) → Except ShapeError (List (String × Bson))
  | [] => .ok []
  | (name, value) :: rest => do return (name, ← ofJson value) :: (← ofJsonMembers rest)

end

/-- The number of a 64-bit integer. -/
def numberOfInt64 (i : Int64) : Number :=
  .int i.toInt ⟨i.le_toInt, Int.lt_of_lt_of_le i.toInt_lt (by decide)⟩

/-- The number of a 32-bit integer. -/
def numberOfInt32 (i : Int32) : Number :=
  .int i.toInt
    ⟨Int.le_trans (by decide) i.le_toInt, Int.lt_of_lt_of_le i.toInt_lt (by decide)⟩

/-- The JSON value of a date: its text under a name of its own, or its milliseconds where it lies
    before 1970 or after the year 9999. -/
def jsonOfDate (millis : Int) : Json :=
  .obj [("$date",
    if 0 ≤ millis ∧ millis < Instant.yearStart 10000 then
      .str (Instant.ofEpochMillis millis).shortText
    else .obj [("$numberLong", .str (Number.intText millis))])]

mutual

/-- The JSON value of a stored value. A number that is not finite becomes null, and dates and object
    ids become objects with one member. -/
def toJson : Bson → Json
  | .null => .null
  | .bool b => .bool b
  | .str s => .str s
  | .double d =>
    match Number.ofDouble? d with
    | some n => .num n
    | none => .null
  | .int32 i => .num (numberOfInt32 i)
  | .int64 i => .num (numberOfInt64 i)
  | .date millis => jsonOfDate millis
  | .objectId hex => .obj [("$oid", .str hex)]
  | .arr items => .arr (toJsonItems items)
  | .doc members => .obj (toJsonMembers members)

@[inherit_doc toJson]
def toJsonItems : List Bson → List Json
  | [] => []
  | item :: rest => toJson item :: toJsonItems rest

@[inherit_doc toJson]
def toJsonMembers : List (String × Bson) → List (String × Json)
  | [] => []
  | (name, value) :: rest => (name, toJson value) :: toJsonMembers rest

end

/-- The stored form of a document. Data under a stored name of the id or of an instant takes its
    place. -/
def ofDocument (d : Document) : Except ShapeError (List (String × Bson)) := do
  let data ← ofJsonMembers d.data
  let escaped := Entries.ofList (Key.mapNamesMembers Key.escape data)
  return escaped.foldl (fun stored entry => Entries.set entry.1 entry.2 stored)
    [(Key.id, .str d.id), (Key.created, .date d.created.epochMillis),
     (Key.updated, .date d.updated.epochMillis)]

/-- The id that is stored. An object id is shown by its digits, and any other value by its text. -/
def idOf : Bson → String
  | .str id => id
  | .objectId hex => hex
  | other => other.text

/-- The instant stored under a name, or the start of 1970 where there is no date. -/
def instantOf (key : String) (stored : List (String × Bson)) : Instant :=
  match Entries.get? key stored with
  | some (.date millis) => Instant.ofEpochMillisClamped millis
  | _ => Instant.epoch

/-- The document of a stored form, which has to have an id. -/
def toDocument (collection : String) (stored : List (String × Bson)) :
    Except DocumentError Document :=
  match Entries.get? Key.id stored with
  | none => .error .missingId
  | some id =>
    let rest := Entries.erase Key.updated (Entries.erase Key.created (Entries.erase Key.id stored))
    .ok {
      id := idOf id
      collection
      data := toJsonMembers (Entries.ofList (Key.mapNamesMembers Key.restore rest))
      created := instantOf Key.created stored
      updated := instantOf Key.updated stored }

end DocQuery.Mongo.Stored
