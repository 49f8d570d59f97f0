import DocQuery.Predicate
import DocQuery.Failure

namespace DocQuery

/-- The direction of an order. -/
inductive Direction where
  | ascending
  | descending
deriving DecidableEq, Repr, Inhabited

namespace Direction

/-- The word for a direction. -/
def word : Direction → String
  | .ascending => "asc"
  | .descending => "desc"

/-- Reads the word for a direction, with letters of any case. -/
def parse (raw : String) : Except RequestError Direction :=
  let lower := Text.asciiLowercase raw
  if lower = word .ascending then .ok .ascending
  else if lower = word .descending then .ok .descending
  else .error (.badOrder raw)

end Direction

/-- A field to order by. -/
structure SortKey where
  field : String
  direction : Direction
deriving DecidableEq, Repr

/-- What is asked of one collection. Without a filter every document is found, and without a limit
    all of them are wanted. -/
structure Scan where
  filter : Option Predicate
  sort : List SortKey
  limit : Option Nat
  offset : Nat
  countTotal : Bool

end DocQuery
