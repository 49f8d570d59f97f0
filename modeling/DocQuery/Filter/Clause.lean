import DocQuery.Filter.Path

/-!
Filter clauses and the keys they are read from. A key is an optional marker for a group of
alternatives, a field path, and an optional operator:

  [or:group]author.role_in

Either one or two underscores stand before the operator, which is `eq` when it is left out.
-/
namespace DocQuery

/-- One condition of a filter. Clauses with a group are alternatives of each other, and a clause
    without one always has to hold. -/
structure Clause where
  path : FieldPath
  op : Operator
  value : Literal
  group : Option String
deriving DecidableEq

/-- A filter value as it comes in. -/
inductive RawValue where
  | text (value : String)
  | json (value : Json)

namespace RawValue

/-- The literal of a value, whatever the operator. -/
def literal : RawValue → Literal
  | .text s => .text s
  | .json v => Literal.ofJson v

end RawValue

namespace Clause

/-- The group that a bare marker names. -/
def anonymousGroup : String := ""

/-- Whether a text may name a group: ASCII letters and digits, underscores and hyphens. -/
def isGroupName (name : String) : Bool :=
  name ≠ "" && name.toList.all fun c => c.isAlphanum || c == '_' || c == '-'

/-- The group of a marker, from the text between its brackets. -/
def groupOfMarker? (marker : String) : Option String :=
  match Text.cutAt? ':' marker with
  | none => if marker = "or" then some anonymousGroup else none
  | some (word, name) => if word = "or" ∧ isGroupName name then some name else none

/-- Takes the marker off a key, if one is there. -/
def splitMarker (key : String) : Except RequestError (Option String × String) :=
  match Text.dropStart? "[" key with
  | none => .ok (none, key)
  | some marked =>
    match Text.cutAt? ']' marked with
    | none => .error (.unterminatedMarker key)
    | some (marker, rest) =>
      match groupOfMarker? marker with
      | some group => .ok (some group, rest)
      | none => .error (.malformedMarker marker key)

/-- The field that a key names before the word of an operator, if any field is left. -/
def fieldBefore? (op : Operator) (key : String) : Option String := do
  let field := Text.dropEnd "_" (← Text.dropEnd? ("_" ++ op.word) key)
  if field = "" then none else some field

/-- Takes the operator off the end of a key. -/
def splitOperator (key : String) : String × Operator :=
  (Operator.longestFirst.findSome? fun op => (fieldBefore? op key).map (·, op)).getD (key, .eq)

/-- The literal that an operator compares with. A list operator takes the items of a text, and any
    value that is not a list as a list of one; `isnull` takes a truth value only. -/
def parseValue (key : String) (op : Operator) (raw : RawValue) : Except RequestError Literal :=
  if op = .isNull then
    match raw.literal.asBool with
    | some b => .ok (.bool b)
    | none => .error (.notBoolean key raw.literal)
  else if op.takesList then
    match raw.literal, raw with
    | .list items, _ => .ok (.list items)
    | _, .text s | _, .json (.str s) => .ok (.list ((Text.commaItems s).map .text))
    | scalar, _ => .ok (.list [scalar])
  else .ok raw.literal

/-- Reads one clause. Of several faults the marker's comes first, then the path's, then the
    value's. -/
def parse (key : String) (raw : RawValue) : Except RequestError Clause := do
  let (group, rest) ← splitMarker key
  let (field, op) := splitOperator rest
  let path ← FieldPath.parse field
  let value ← parseValue key op raw
  return ⟨path, op, value, group⟩

/-- Reads clauses from texts. The first fault counts. -/
def parsePairs (pairs : List (String × String)) : Except RequestError (List Clause) :=
  pairs.mapM fun (key, value) => parse key (.text value)

/-- Reads clauses from the members of a JSON object. The first fault counts. -/
def parseMembers (members : List (String × Json)) : Except RequestError (List Clause) :=
  members.mapM fun (key, value) => parse key (.json value)

end Clause

end DocQuery
