import DocQuery.Store.Basic

namespace DocQuery

namespace Store

/-- One change of a store. -/
inductive Change where
  | create (collection : String)
  | insert (collection : String) (added : List Document)
  | insertJson (collection : String) (values : List (Json × Fresh))

namespace Change

/-- The store after a change, and whether the change failed. -/
def apply (s : Store) : Change → Store × Except Failure Unit
  | create collection => (s.create collection, .ok ())
  | insert collection added => s.insert collection added
  | insertJson collection values => s.insertJson collection values

/-- The store after several changes, whether they fail or not. -/
def applyAll (s : Store) (changes : List Change) : Store :=
  changes.foldl (fun s change => (change.apply s).1) s

end Change

/-- A store that changes lead to from the empty one, those that fail after adding some documents
    included. -/
inductive Reachable : Store → Prop where
  | empty : Reachable Store.empty
  | step {s : Store} (reached : Reachable s) (change : Change) : Reachable (change.apply s).1

/-- What several changes lead to can be reached. -/
theorem Reachable.applyAll {s : Store} (reached : Reachable s) (changes : List Change) :
    Reachable (Change.applyAll s changes) := by
  induction changes generalizing s with
  | nil => exact reached
  | cons change rest ih => exact ih (reached.step change)

end Store

end DocQuery
