import DocQuery.Mongo.Matching

/-!
Filter documents as a MongoDB server reads them, as far as they compare whole values: conjunctions
and disjunctions of filter documents, and conditions on the values under a name. A document that
is none of these matches nothing.
-/
namespace DocQuery.Mongo.Query

/-- The condition of an operator and its operand. -/
def condition? (operator : String) : Bson → Option Condition
  | .arr values =>
    if operator = "$in" then some (.within values)
    else if operator = "$nin" then some (.without values)
    else none
  | value =>
    if operator = "$ne" ∧ value.isNull then some .present
    else ([Bound.gt, .gte, .lt, .lte].find? fun side => Filter.boundName side = operator).map
      (.bound · value)

/-- Whether a condition holds of what is stored under a name. The condition is null, or a document
    of one operator. -/
def holds (stored : Option Bson) : Bson → Bool
  | .null => Condition.absent.holds id stored
  | .doc [(operator, operand)] => (condition? operator operand).any (Condition.holds id stored)
  | _ => false

mutual

/-- Whether a stored document meets every member of a filter document. -/
def accepts (stored : List (String × Bson)) : List (String × Bson) → Bool
  | [] => true
  | (key, value) :: rest => acceptsMember stored key value && accepts stored rest

/-- Whether a stored document meets one member: a conjunction, a disjunction, or a condition on the
    value under its name. -/
def acceptsMember (stored : List (String × Bson)) (key : String) : Bson → Bool
  | .arr parts =>
    if key = "$and" then acceptsAll stored parts
    else if key = "$or" then acceptsAny stored parts
    else false
  | condition => holds (Entries.get? key stored) condition

/-- Whether a stored document meets every filter document of a list. -/
def acceptsAll (stored : List (String × Bson)) : List Bson → Bool
  | [] => true
  | .doc filter :: rest => accepts stored filter && acceptsAll stored rest
  | _ :: _ => false

/-- Whether a stored document meets some filter document of a list. -/
def acceptsAny (stored : List (String × Bson)) : List Bson → Bool
  | [] => false
  | .doc filter :: rest => accepts stored filter || acceptsAny stored rest
  | _ :: rest => acceptsAny stored rest

end

end DocQuery.Mongo.Query
