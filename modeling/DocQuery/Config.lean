import DocQuery.Entries
import DocQuery.Failure
import DocQuery.Sorted

namespace DocQuery

/-- Where references to users lead. -/
structure UserNames where
  /-- The collection that holds the users. -/
  collection : String := "users"
  /-- The plural names that mean this collection, each once and ascending. -/
  aliases : List String := ["app_users", "appusers", "users"]
deriving DecidableEq, Repr

/-- The limits of an engine, and its names for users. -/
structure Config where
  /-- The page size of a request that asks for none. -/
  defaultLimit : Nat := 50
  /-- The largest page size. -/
  maxLimit : Nat := 500
  /-- How many relations a filter clause may look up. -/
  maxFilterDepth : Nat := 1
  /-- How many relations of a chain are hydrated. -/
  maxHydrationDepth : Nat := 2
  users : UserNames := {}
deriving DecidableEq, Repr

namespace UserNames

/-- Makes one more plural name mean the user collection. -/
def withAlias (plural : String) (u : UserNames) : UserNames :=
  { u with aliases := Sorted.insert plural u.aliases }

end UserNames

namespace Config

/-- The largest count that fits in 64 bits. Counts, limits and offsets stay below or at it. -/
def maxCount : Nat := 0xFFFFFFFFFFFFFFFF

/-- The page size that a request gets. -/
def clampLimit (config : Config) (requested : Option Nat) : Nat :=
  min (requested.getD config.defaultLimit) config.maxLimit

/-- The count a JSON value stands for: an integer of 64 bits without a sign. -/
def countOfJson (member : String) : Json → Except ShapeError Nat
  | .num (.int value _) =>
    if 0 ≤ value then .ok value.toNat else .error (.wrongType member "a count")
  | _ => .error (.wrongType member "a count")

/-- The text a JSON value stands for. -/
def textOfJson (member : String) : Json → Except ShapeError String
  | .str s => .ok s
  | _ => .error (.wrongType member "a string")

/-- The set of texts a JSON array stands for. -/
def textsOfJson (member : String) : Json → Except ShapeError (List String)
  | .arr items => return Sorted.ofList (← items.mapM (textOfJson member))
  | _ => .error (.wrongType member "an array")

/-- The values of an object's members by name, or of an array's items by position. -/
def membersOfJson (name : String) (members : List String) :
    Json → Except ShapeError (List (String × Json))
  | .obj given => .ok given
  | .arr items =>
    if items.length ≤ members.length then .ok (members.zip items)
    else .error (.tooManyItems members.length)
  | _ => .error (.wrongType name "an object")

/-- Reads a member that may be missing. -/
def memberOr {α : Type} (given : List (String × Json)) (name : String)
    (read : String → Json → Except ShapeError α) (default : α) : Except ShapeError α :=
  match Entries.get? name given with
  | some value => read name value
  | none => .ok default

/-- Reads the names for users. -/
def usersOfJson (member : String) (value : Json) : Except ShapeError UserNames := do
  let given ← membersOfJson member ["user_collection", "user_aliases"] value
  let standard : UserNames := {}
  let collection ← memberOr given "user_collection" textOfJson standard.collection
  let aliases ← memberOr given "user_aliases" textsOfJson standard.aliases
  return { collection, aliases }

/-- Reads a configuration: an object, or an array with the values alone in the order of the members.
    Every member has a default, and members that are not known are left out of account. -/
def ofJson (value : Json) : Except ShapeError Config := do
  let given ← membersOfJson "config"
    ["default_limit", "max_limit", "max_filter_depth", "max_populate_depth", "resolver"] value
  let standard : Config := {}
  let defaultLimit ← memberOr given "default_limit" countOfJson standard.defaultLimit
  let maxLimit ← memberOr given "max_limit" countOfJson standard.maxLimit
  let maxFilterDepth ← memberOr given "max_filter_depth" countOfJson standard.maxFilterDepth
  let maxHydrationDepth ←
    memberOr given "max_populate_depth" countOfJson standard.maxHydrationDepth
  let users ← memberOr given "resolver" usersOfJson standard.users
  return { defaultLimit, maxLimit, maxFilterDepth, maxHydrationDepth, users }

end Config

end DocQuery
