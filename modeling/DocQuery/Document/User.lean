import DocQuery.Document.Basic

namespace DocQuery

/-- A user, with the members beyond the known ones as they are. -/
structure User where
  id : String
  email : Option String
  roles : List String
  extra : List (String × Json)
deriving DecidableEq

namespace User

/-- Reads a member that has to be a string. -/
def readText (member : String) : Json → Except ShapeError String
  | .str s => .ok s
  | _ => .error (.wrongType member "a string")

/-- Reads the address, which may be missing or null. -/
def readEmail (members : List (String × Json)) : Except ShapeError (Option String) :=
  match Entries.get? "email" members with
  | none | some .null => .ok none
  | some value => some <$> readText "email" value

/-- Reads the roles, which may be missing but not null. -/
def readRoles (members : List (String × Json)) : Except ShapeError (List String) :=
  match Entries.get? "roles" members with
  | none => .ok []
  | some (.arr items) => items.mapM (readText "roles")
  | some _ => .error (.wrongType "roles" "an array")

/-- Reads a document as a user. -/
def ofDocument (d : Document) : Except ShapeError User := do
  let members := d.entityMembers
  let email ← readEmail members
  let roles ← readRoles members
  let extra :=
    Entries.erase "roles" (Entries.erase "email" (Entries.erase Document.idField members))
  return { id := d.id, email, roles, extra }

/-- The JSON form of a user, with the other members beside the known ones. -/
def toJson (u : User) : Json :=
  .obj <|
    (Document.idField, .str u.id) ::
    ("email", match u.email with
      | some email => .str email
      | none => .null) ::
    ("roles", .arr (u.roles.map .str)) :: u.extra

end User

end DocQuery
