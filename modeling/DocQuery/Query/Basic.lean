import DocQuery.Filter.Basic
import DocQuery.Query.Chain
import DocQuery.Scan

namespace DocQuery

/-- A complete query. -/
structure Query where
  collection : String
  filter : Filter := Filter.empty
  chains : List Chain := []
  /-- The fields to keep, or `none` for all of them. -/
  select : Option (List String) := none
  /-- The field to order by, or `none` for the id. -/
  sort : Option String := none
  direction : Direction := .ascending
  /-- The page size that is asked for. The engine may give less. -/
  limit : Option Nat := none
  offset : Nat := 0
  /-- Whether all matching documents are counted. -/
  countTotal : Bool := true

end DocQuery
