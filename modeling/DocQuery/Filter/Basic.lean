import DocQuery.Entries
import DocQuery.Filter.Clause
import DocQuery.Sorted

namespace DocQuery

/-- The clauses of a request, sorted out. The groups ascend by name. -/
structure Filter where
  required : List Clause
  groups : List (String × List Clause)
deriving DecidableEq

namespace Filter

/-- The filter that asks for nothing. -/
def empty : Filter := ⟨[], []⟩

instance : Inhabited Filter := ⟨empty⟩

/-- Sorts clauses out by group. Inside a group they keep their order. -/
def ofClauses (clauses : List Clause) : Filter where
  required := clauses.filter fun c => c.group.isNone
  groups := (Sorted.ofList (clauses.filterMap Clause.group)).map fun name =>
    (name, clauses.filter fun c => c.group = some name)

/-- Adds a group without members, unless the group is there. -/
def withGroup (name : String) (f : Filter) : Filter :=
  if (Entries.get? name f.groups).isSome then f
  else { f with groups := Entries.insert name [] f.groups }

/-- Every clause: the required ones, then those of each group. -/
def clauses (f : Filter) : List Clause := f.required ++ f.groups.flatMap (·.2)

def isEmpty (f : Filter) : Bool := f.clauses.isEmpty

/-- Whether a filter holds, given which clauses do. A group without members asks for nothing. -/
def holds (f : Filter) (clauseHolds : Clause → Bool) : Bool :=
  f.required.all clauseHolds &&
    f.groups.all fun (_, members) => members.isEmpty || members.any clauseHolds

end Filter

end DocQuery
