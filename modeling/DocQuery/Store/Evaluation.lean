import DocQuery.Document.Basic
import DocQuery.Predicate
import DocQuery.Text.Lowercase

namespace DocQuery

namespace Operator

/-- Compares a stored string with a text. Only the operators on strings compare so. -/
def textHolds (op : Operator) (stored needle : String) : Bool :=
  let folded (relation : List Char → List Char → Bool) : Bool :=
    relation (Text.lowercase needle).toList (Text.lowercase stored).toList
  match op with
  | .contains => Text.occursIn needle.toList stored.toList
  | .startsWith => decide (needle.toList <+: stored.toList)
  | .endsWith => decide (needle.toList <:+ stored.toList)
  | .icontains => folded Text.occursIn
  | .istartsWith => folded fun a b => decide (a <+: b)
  | .iendsWith => folded fun a b => decide (a <:+ b)
  | _ => false

/-- Whether a string operator holds of a stored value. It holds of strings alone, and for a literal
    that has a text. -/
def stringHolds (op : Operator) (stored : Json) (value : Literal) : Bool :=
  match stored with
  | .str s => value.asText.any (op.textHolds s)
  | _ => false

/-- Whether an array has an element that is meant by a literal. Without regard to case, elements
    that are strings are compared in small letters. -/
def elementHolds (op : Operator) (element : Json) (value : Literal) : Bool :=
  match op, element with
  | .icontains, .str s => value.asText.any fun t => Text.lowercase t == Text.lowercase s
  | _, element => value.equals element

/-- Whether an ordering satisfies an operator on bounds. -/
def boundHolds (op : Operator) (ordering : Ordering) : Bool :=
  match op with
  | .gt => ordering == .gt
  | .gte => ordering != .lt
  | .lt => ordering == .lt
  | .lte => ordering != .gt
  | _ => false

/-- Whether the operator holds of a value that is stored and not null. -/
def holdsOf (op : Operator) (stored : Json) (value : Literal) : Bool :=
  match op with
  | .eq => value.equalsField stored
  | .ne => !value.equalsField stored
  | .gt | .gte | .lt | .lte => (value.order? stored).any op.boundHolds
  | .contains | .icontains =>
    match stored with
    | .arr elements => elements.any fun element => op.elementHolds element value
    | _ => op.stringHolds stored value
  | .startsWith | .istartsWith | .endsWith | .iendsWith => op.stringHolds stored value
  | .isIn | .overlaps => value.items.any fun item => item.equalsField stored
  | .notIn => !value.items.any fun item => item.equalsField stored
  | .isNull => value.asBool == some false

/-- Whether the operator holds where nothing but null is stored. -/
def holdsOfNull (op : Operator) (value : Literal) : Bool :=
  match op with
  | .isNull => value.asBool == some true
  | .ne | .notIn => true
  | _ => false

/-- Whether the operator holds of what a field holds. A field that is missing counts as null. -/
def holds (op : Operator) (stored : Option Json) (value : Literal) : Bool :=
  match stored with
  | none | some .null => op.holdsOfNull value
  | some stored => op.holdsOf stored value

end Operator

namespace Predicate

mutual

/-- Whether a predicate accepts a document. -/
def accepts (d : Document) : Predicate → Bool
  | .all parts => acceptsAll d parts
  | .any parts => acceptsAny d parts
  | .test field op value => op.holds (d.field? field) value

/-- Whether every predicate of a list accepts a document. -/
def acceptsAll (d : Document) : List Predicate → Bool
  | [] => true
  | p :: rest => accepts d p && acceptsAll d rest

/-- Whether some predicate of a list accepts a document. -/
def acceptsAny (d : Document) : List Predicate → Bool
  | [] => false
  | p :: rest => accepts d p || acceptsAny d rest

end

end Predicate

end DocQuery
