import DocQuery.Entries

namespace DocQuery

/-- The names that may come next, ascending, each with what may follow it. -/
inductive NameTree where
  | node (children : List (String × NameTree))
deriving Inhabited

namespace NameTree

/-- The tree without names. -/
def empty : NameTree := .node []

/-- What may come next. -/
def children : NameTree → List (String × NameTree)
  | .node children => children

/-- The tree after a name, if the name may come next. -/
def child? (name : String) (tree : NameTree) : Option NameTree := Entries.get? name tree.children

def isEmpty (tree : NameTree) : Bool := tree.children.isEmpty

/-- Adds a path of names. -/
def add : List String → NameTree → NameTree
  | [], tree => tree
  | name :: rest, tree =>
    .node (Entries.insert name (add rest ((tree.child? name).getD empty)) tree.children)

/-- The tree of several paths, which is the same in whatever order they come. -/
def ofPaths (paths : List (List String)) : NameTree :=
  paths.foldl (fun tree path => tree.add path) empty

/-- Whether the names of a path may come one after the other. -/
def contains : List String → NameTree → Bool
  | [], _ => true
  | name :: rest, tree => (tree.child? name).any (contains rest)

mutual

/-- The length of the longest path. -/
def height : NameTree → Nat
  | .node children => heightEach children

/-- The length of the longest path through one of several names. -/
def heightEach : List (String × NameTree) → Nat
  | [] => 0
  | (_, tree) :: rest => max (height tree + 1) (heightEach rest)

end

end NameTree

end DocQuery
