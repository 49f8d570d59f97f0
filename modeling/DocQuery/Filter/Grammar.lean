import DocQuery.Filter.Printer

namespace DocQuery.Clause

/-- How a key begins: with the marker of a group, or else not as a marker does. -/
inductive Begins : (key : String) → Option String → (rest : String) → Prop where
  | unmarked {rest : String} (plain : ¬ "[".toList <+: rest.toList) : Begins rest none rest
  | marked {name : String} (named : name = anonymousGroup ∨ isGroupName name) (rest : String) :
      Begins (markerText (some name) ++ rest) (some name) rest

/-- How what follows the marker ends: with one or two underscores and the word of an operator, or
    without an operator. The second underscore never counts to the field, and a field is not
    empty. -/
inductive Ends : (rest field : String) → Operator → Prop where
  | doubled {field : String} (nonempty : field ≠ "") (op : Operator) :
      Ends (field ++ "__" ++ op.word) field op
  | single {field : String} (nonempty : field ≠ "") (closed : ¬ "_".toList <:+ field.toList)
      (op : Operator) : Ends (field ++ "_" ++ op.word) field op
  | bare {field : String}
      (noOperator : ∀ (before : String) (op : Operator),
        field = before ++ "_" ++ op.word → before = "" ∨ before = "_") :
      Ends field field .eq

/-- Which literal an operator takes from a text: `isnull` a truth value whose word the text is, a
    list operator the items, and any other operator the text itself. -/
inductive Takes : Operator → (value : String) → Literal → Prop where
  | truth {value : String} (b : Bool) (word : Text.asciiLowercase value = Json.boolText b) :
      Takes .isNull value (.bool b)
  | items {op : Operator} (list : op.takesList) (value : String) :
      Takes op value (.list ((Text.commaItems value).map .text))
  | text {op : Operator} (notTruth : op ≠ .isNull)
      (notList : op.takesList = false) (value : String) :
      Takes op value (.text value)

end DocQuery.Clause
