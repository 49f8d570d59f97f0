import DocQuery.Mongo.Filter

/-!
Which stored documents a MongoDB filter matches. A condition looks at the value under a name and,
where that is an array, at each of its elements as well; a missing value counts as null. Values of
different types are never equal and have no order, except that numbers of all types compare by what
they are worth.
-/
namespace DocQuery

namespace Bson

/-- What a number is worth, in units of the least positive binary64 number. An infinity is worth
    more than every finite number. -/
def worth? : Bson → Option Int
  | .int32 i => some (i.toInt * Double.unitsPerOne)
  | .int64 i => some (i.toInt * Double.unitsPerOne)
  | .double d =>
    if d.isNaN then none else some (if d.negative then -(d.units : Int) else d.units)
  | _ => none

/-- The order of two values of one type. Arrays and documents have none. -/
def order? : Bson → Bson → Option Ordering
  | .null, .null => some .eq
  | .bool a, .bool b => some (compare a b)
  | .str a, .str b => some (compare a b)
  | .date a, .date b => some (compare a b)
  | .objectId a, .objectId b => some (compare a b)
  | a, b => do return compare (← a.worth?) (← b.worth?)

mutual

/-- Whether two values are equal. Documents are equal with the same members in the same order. -/
def sameValue : Bson → Bson → Bool
  | .arr as, .arr bs => sameItems as bs
  | .doc as, .doc bs => sameMembers as bs
  | a, b => a.order? b == some .eq

@[inherit_doc sameValue]
def sameItems : List Bson → List Bson → Bool
  | [], [] => true
  | a :: as, b :: bs => sameValue a b && sameItems as bs
  | _, _ => false

@[inherit_doc sameValue]
def sameMembers : List (String × Bson) → List (String × Bson) → Bool
  | [], [] => true
  | (k, a) :: as, (l, b) :: bs => k == l && sameValue a b && sameMembers as bs
  | _, _ => false

end

end Bson

namespace Mongo

/-- What a pattern tied to the end of a string may take for all of it: the string, and what comes
    before a line break at its very end. -/
def Pattern.endings (cs : List Char) : List (List Char) :=
  cs :: if cs.getLast? = some '\n' then [cs.dropLast] else []

/-- Whether a pattern matches a string, characters being alike that `fold` makes the same. -/
def Pattern.accepts (fold : Char → Char) (p : Pattern) (s : String) : Bool :=
  let text := p.text.toList.map fold
  match p.atStart, p.atEnd with
  | false, false => Text.occursIn text (s.toList.map fold)
  | true, false => decide (text <+: s.toList.map fold)
  | false, true => (endings s.toList).any fun cs => decide (text <:+ cs.map fold)
  | true, true => (endings s.toList).any fun cs => text == cs.map fold

/-- Whether an ordering lies within a bound. -/
def Bound.admits : Bound → Ordering → Bool
  | .gt, ordering => ordering == .gt
  | .gte, ordering => ordering != .lt
  | .lt, ordering => ordering == .lt
  | .lte, ordering => ordering != .gt

namespace Condition

/-- The values that a condition looks at. -/
def seen : Option Bson → List Bson
  | none => [.null]
  | some (.arr items) => .arr items :: items
  | some value => [value]

/-- Whether a value equals one of several. -/
def isAmong (values : List Bson) (value : Bson) : Bool := values.any value.sameValue

/-- Whether a condition holds of what is stored under a name. How letters of two cases are alike is
    left to `fold`. -/
def holds (fold : Char → Char) (stored : Option Bson) : Condition → Bool
  | .within values => (seen stored).any (isAmong values)
  | .without values => !(seen stored).any (isAmong values)
  | .bound side value => (seen stored).any fun v => (v.order? value).any side.admits
  | .pattern p ignoreCase => (seen stored).any fun v => match v with
    | .str s => p.accepts (if ignoreCase then fold else id) s
    | _ => false
  | .element values => match stored with
    | some (.arr items) => items.any (isAmong values)
    | _ => false
  | .absent => (seen stored).any Bson.isNull
  | .present => !(seen stored).any Bson.isNull

end Condition

namespace Filter

mutual

/-- Whether a filter matches a stored document. The names of a filter hold no dots, so each leads to
    a member of the document itself. -/
def accepts (fold : Char → Char) (stored : List (String × Bson)) : Filter → Bool
  | .all parts => acceptsAll fold stored parts
  | .any parts => acceptsAny fold stored parts
  | .on key condition => condition.holds fold (Entries.get? key stored)

/-- Whether every filter of a list matches a stored document. -/
def acceptsAll (fold : Char → Char) (stored : List (String × Bson)) : List Filter → Bool
  | [] => true
  | f :: rest => accepts fold stored f && acceptsAll fold stored rest

/-- Whether some filter of a list matches a stored document. -/
def acceptsAny (fold : Char → Char) (stored : List (String × Bson)) : List Filter → Bool
  | [] => false
  | f :: rest => accepts fold stored f || acceptsAny fold stored rest

end

end Filter

end Mongo

end DocQuery
