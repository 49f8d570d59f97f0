import DocQuery.Mongo.Filter

namespace DocQuery

namespace Bson

/-- Whether a value is of a kind that a literal is sent as: null, a truth value, a string, a double
    or a date. -/
def IsLeaf : Bson → Prop
  | .null | .bool _ | .str _ | .double _ | .date _ => True
  | .int32 _ | .int64 _ | .objectId _ | .arr _ | .doc _ => False

mutual

/-- Whether all members of documents in a value and all values without parts in it are as given, at
    every depth. -/
def Throughout (member : String → Bson → Prop) (leaf : Bson → Prop) : Bson → Prop
  | .arr items => ThroughoutItems member leaf items
  | .doc members => ThroughoutMembers member leaf members
  | .null => leaf .null
  | .bool b => leaf (.bool b)
  | .str s => leaf (.str s)
  | .double d => leaf (.double d)
  | .int32 i => leaf (.int32 i)
  | .int64 i => leaf (.int64 i)
  | .date millis => leaf (.date millis)
  | .objectId hex => leaf (.objectId hex)

@[inherit_doc Throughout]
def ThroughoutItems (member : String → Bson → Prop) (leaf : Bson → Prop) : List Bson → Prop
  | [] => True
  | item :: rest => Throughout member leaf item ∧ ThroughoutItems member leaf rest

@[inherit_doc Throughout]
def ThroughoutMembers (member : String → Bson → Prop) (leaf : Bson → Prop) :
    List (String × Bson) → Prop
  | [] => True
  | (name, value) :: rest =>
    member name value ∧ Throughout member leaf value ∧ ThroughoutMembers member leaf rest

end

end Bson

namespace Predicate

mutual

/-- The fields that a predicate tests. -/
def fields : Predicate → List String
  | .all parts | .any parts => fieldsOf parts
  | .test field _ _ => [field]

@[inherit_doc fields]
def fieldsOf : List Predicate → List String
  | [] => []
  | p :: rest => fields p ++ fieldsOf rest

end

end Predicate

namespace Mongo.Query

/-- The operators that join filter documents. -/
def joins : List String := ["$and", "$or"]

/-- The operators of conditions. -/
def comparisons : List String :=
  ["$in", "$nin", "$gt", "$gte", "$lt", "$lte", "$ne", "$regex", "$options", "$elemMatch"]

/-- What may stand under a stored name. Literals are leaves of it. -/
inductive IsCondition : Bson → Prop where
  | absent : IsCondition .null
  | present : IsCondition (.doc [("$ne", .null)])
  | among {operator : String} (known : operator ∈ ["$in", "$nin"]) {values : List Bson}
      (leaves : ∀ v ∈ values, v.IsLeaf) : IsCondition (.doc [(operator, .arr values)])
  | bound (side : Bound) {value : Bson} (leaf : value.IsLeaf) :
      IsCondition (.doc [(Filter.boundName side, value)])
  | pattern (expression options : String) :
      IsCondition (.doc [("$regex", .str expression), ("$options", .str options)])
  | element {values : List Bson} (leaves : ∀ v ∈ values, v.IsLeaf) :
      IsCondition (.doc [("$elemMatch", .doc [("$in", .arr values)])])

/-- The filter document that no stored document matches. -/
def impossible : List (String × Bson) := [(Key.id, .doc [("$in", .arr [])])]

/-- The filter documents of one test: conditions on one stored name, of which one has to hold. -/
inductive IsTest (name : String) : List (String × Bson) → Prop where
  | impossible : IsTest name impossible
  | on {value : Bson} (condition : IsCondition value) : IsTest name [(name, value)]
  | either {parts : List (List (String × Bson))} (nonempty : parts ≠ [])
      (tests : ∀ part ∈ parts, IsTest name part) : IsTest name [("$or", .arr (parts.map .doc))]

mutual

/-- Whether a filter document is put together as a predicate is, with a test of its own field in the
    place of each test. -/
def Mirrors : Predicate → List (String × Bson) → Prop
  | .all [], members => members = []
  | .all parts, members =>
    ∃ documents, members = [("$and", .arr documents)] ∧ MirrorsEach parts documents
  | .any [], members => members = impossible
  | .any parts, members =>
    ∃ documents, members = [("$or", .arr documents)] ∧ MirrorsEach parts documents
  | .test field _ _, members => IsTest (storedField field) members

@[inherit_doc Mirrors]
def MirrorsEach : List Predicate → List Bson → Prop
  | [], documents => documents = []
  | p :: rest, documents =>
    ∃ members others, documents = .doc members :: others ∧ Mirrors p members ∧
      MirrorsEach rest others

end

/-- Whether a name is the one of the id or of a field that a predicate tests. -/
def IsKeyOf (p : Predicate) (name : String) : Prop :=
  name = Key.id ∨ ∃ field ∈ p.fields, name = storedField field

/-- Whether a member has an operator or a name of a kind for its name. What joins filter documents
    has some to join. -/
structure IsMember (key : String → Prop) (name : String) (value : Bson) : Prop where
  named : name ∈ joins ++ comparisons ∨ key name
  parts : name ∈ joins → ∃ items, value = .arr items ∧ items ≠ []

end Mongo.Query

end DocQuery
