namespace DocQuery

/-- Something a caller should know about an answer. -/
inductive Warning where
  /-- A field looks like a reference to a collection that does not exist, and was taken to refer to
      the user collection instead. -/
  | assumedTarget (field missing fallback : String)
  /-- A chain of relations is longer than the limit, and only its start was hydrated. -/
  | chainTooLong (chain : String) (max : Nat)
deriving DecidableEq, Repr

namespace Warning

/-- The wording of a warning. -/
def message : Warning → String
  | assumedTarget field missing fallback =>
    s!"Relationship field `{field}` has no collection `{missing}`; using `{fallback}`"
  | chainTooLong chain max =>
    s!"Populate spec `{chain}` exceeds max depth {max}; deeper relations left unpopulated"

/-- Adds the warnings that are not there yet. -/
def merge (known new : List Warning) : List Warning :=
  new.foldl (fun ws w => if w ∈ ws then ws else ws ++ [w]) known

end Warning

end DocQuery
