namespace DocQuery

/-- How a condition compares a field with its literal. -/
inductive Operator where
  | eq | ne | gt | gte | lt | lte
  | contains | icontains | startsWith | istartsWith | endsWith | iendsWith
  | isIn | notIn | isNull | overlaps
deriving DecidableEq, Repr, Inhabited

namespace Operator

/-- The word for an operator, at the end of filter keys and in messages. -/
def word : Operator → String
  | .eq => "eq"
  | .ne => "ne"
  | .gt => "gt"
  | .gte => "gte"
  | .lt => "lt"
  | .lte => "lte"
  | .contains => "contains"
  | .icontains => "icontains"
  | .startsWith => "startswith"
  | .istartsWith => "istartswith"
  | .endsWith => "endswith"
  | .iendsWith => "iendswith"
  | .isIn => "in"
  | .notIn => "notin"
  | .isNull => "isnull"
  | .overlaps => "overlaps"

/-- Every operator, those with longer words first. A key is read with the first operator in this
    order whose word it ends in, so that no word hides one that it ends with. -/
def longestFirst : List Operator :=
  [.istartsWith, .startsWith, .icontains, .iendsWith, .overlaps, .contains, .endsWith, .isNull,
   .notIn, .gte, .lte, .eq, .ne, .gt, .lt, .isIn]

theorem mem_longestFirst (op : Operator) : op ∈ longestFirst := by cases op <;> decide

/-- Whether the literal is a list of alternatives. -/
def takesList : Operator → Bool
  | .isIn | .notIn | .overlaps => true
  | _ => false

/-- The operator of a word. -/
def ofWord? (word : String) : Option Operator := longestFirst.find? fun op => op.word = word

/-- No two operators share a word. -/
theorem ofWord?_word (op : Operator) : ofWord? op.word = some op := by cases op <;> decide

end Operator

end DocQuery
