import DocQuery.Document.Basic
import DocQuery.NameTree
import DocQuery.Text.Pieces

namespace DocQuery.Selection

/-- The tree of the selected names. A dotted name selects inside of objects, and inside of the
    elements of arrays. -/
def ofFields (fields : List String) : NameTree := NameTree.ofPaths (fields.map (Text.split '.'))

mutual

/-- Keeps the selected members of a value and of what is in it. Where nothing more is selected, the
    value stays whole. The id of an object always stays. -/
def prune (tree : NameTree) : Json → Json
  | .obj members => if tree.isEmpty then .obj members else .obj (pruneMembers tree members)
  | .arr items => if tree.isEmpty then .arr items else .arr (pruneItems tree items)
  | value => value

/-- The selected members of an object, and its id. -/
def pruneMembers (tree : NameTree) : List (String × Json) → List (String × Json)
  | [] => []
  | (name, value) :: rest =>
    match tree.child? name with
    | some nested => (name, prune nested value) :: pruneMembers tree rest
    | none =>
      if name = Document.idField then (name, value) :: pruneMembers tree rest
      else pruneMembers tree rest

/-- The elements of an array, each with what is selected of it. -/
def pruneItems (tree : NameTree) : List Json → List Json
  | [] => []
  | item :: rest => prune tree item :: pruneItems tree rest

end

/-- A document with the selected fields of its data, and with the hydrated relations of the given
    names. -/
def project (fields hydrated : List String) (d : Document) : Document :=
  let tree := ofFields fields
  { d with
    data := d.data.filterMap fun (name, value) =>
      match tree.child? name with
      | some nested => some (name, prune nested value)
      | none => if name ∈ hydrated then some (name, value) else none }

end DocQuery.Selection
