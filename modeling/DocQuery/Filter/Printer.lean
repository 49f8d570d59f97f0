import DocQuery.Filter.Clause

namespace DocQuery

namespace FieldPath

/-- Whether a path is told by its text. Names hold no dots, and only the name at the end of a path
    that walks a relation may be empty. -/
structure IsWritable (p : FieldPath) : Prop where
  noDots : ∀ name ∈ p.segments, '.' ∉ name.toList
  relation_ne : ∀ relation ∈ p.relations, relation ≠ ""
  target_ne : p.relations = [] → p.target ≠ ""

end FieldPath

namespace Clause

/-- The marker of a group. -/
def markerText : Option String → String
  | none => ""
  | some name => if name = anonymousGroup then "[or]" else "[or:" ++ name ++ "]"

/-- The key of a clause. Two underscores stand before the operator. -/
def key (c : Clause) : String := markerText c.group ++ c.path.text ++ "__" ++ c.op.word

/-- The text of a value. The items of a list have commas between them. -/
def valueText : Literal → String
  | .list items => ",".intercalate (items.filterMap Literal.asText)
  | value => value.asText.getD ""

/-- Whether a text is an item of a comma list as it stands. -/
def isItem (text : String) : Bool :=
  text ≠ "" && !text.toList.contains ',' && Text.trim text == text

/-- Whether an operator takes a value that its text tells: `isnull` a truth value, a list operator a
    list of items, and any other operator a text. -/
def takesValue (op : Operator) (value : Literal) : Prop :=
  match value with
  | .bool _ => op = .isNull
  | .list items => op.takesList ∧ ∀ item ∈ items, ∃ text, item = .text text ∧ isItem text
  | .text _ => op ≠ .isNull ∧ !op.takesList
  | _ => False

/-- Whether a clause is told by its key and its text. Without a group, the key must not begin like a
    marker. -/
structure IsWritable (c : Clause) : Prop where
  path : c.path.IsWritable
  group : ∀ name, c.group = some name → name = anonymousGroup ∨ isGroupName name
  unmarked : c.group = none → Text.dropStart? "[" c.path.text = none
  value : takesValue c.op c.value

end Clause

end DocQuery
