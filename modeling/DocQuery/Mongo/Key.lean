import DocQuery.Entries
import DocQuery.Mongo.Bson
import DocQuery.Text.Pieces

namespace DocQuery.Mongo.Key

/-- The characters that mean something in the names of a stored document, each with the marker that
    is stored in its place. -/
def markers : List (Char × String) :=
  [('.', "__dot__"), ('$', "__dollar__"), ('\x00', "__null__")]

/-- What is stored for one character of a name. -/
def escapeChar (c : Char) : List Char :=
  match markers.lookup c with
  | some marker => marker.toList
  | none => [c]

/-- A name as it is stored. -/
def escape (name : String) : String := String.ofList (name.toList.flatMap escapeChar)

/-- A name with each marker read back, the last kind of marker first. A name that held the text of a
    marker before it was stored does not come back. -/
def restore (name : String) : String :=
  String.ofList (markers.foldr
    (fun (c, marker) cs => Text.replace marker.toList [c] cs) name.toList)

mutual

/-- Rewrites every name in a value. Of members that get the same name the last one stays. -/
def mapNames (f : String → String) : Bson → Bson
  | .arr items => .arr (mapNamesItems f items)
  | .doc members => .doc (Entries.ofList (mapNamesMembers f members))
  | value => value

@[inherit_doc mapNames]
def mapNamesItems (f : String → String) : List Bson → List Bson
  | [] => []
  | item :: rest => mapNames f item :: mapNamesItems f rest

@[inherit_doc mapNames]
def mapNamesMembers (f : String → String) : List (String × Bson) → List (String × Bson)
  | [] => []
  | (name, value) :: rest => (f name, mapNames f value) :: mapNamesMembers f rest

end

/-- A value with its names as they are stored. -/
def escapeValue (value : Bson) : Bson := mapNames escape value

/-- A value with its names read back. -/
def restoreValue (value : Bson) : Bson := mapNames restore value

/-- The name under which the id of a document is stored. -/
def id : String := "_id"

/-- The name under which the making of a document is stored. -/
def created : String := "_created_at"

/-- The name under which the last change of a document is stored. -/
def updated : String := "_updated_at"

end DocQuery.Mongo.Key
