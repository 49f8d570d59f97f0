import DocQuery.Mongo.Query

/-!
Regular expressions as a MongoDB server reads them, as far as they ask for characters one after
the other and for the start or the end of the string. What they ask for is searched at every place
of a string. The end of a string is also in front of a line break that is the last character.
-/
namespace DocQuery.Mongo

/-- What an expression asks for next. -/
inductive Atom where
  | char (c : Char)
  | start
  | finish
deriving DecidableEq, Repr

/-- A regular expression, read. -/
abbrev Expression := List Atom

namespace Expression

/-- The characters that do not ask for themselves and are no anchors. NUL ends the text of an
    expression. -/
def operators : List Char := ['\\', '.', '*', '+', '?', '(', ')', '|', '[', '\x7b', '\x00']

/-- What a character asks for without a backslash before it. -/
def plain? (c : Char) : Option Atom :=
  if c = '^' then some .start
  else if c = '$' then some .finish
  else if c ∈ operators then none
  else some (.char c)

/-- What a character asks for after a backslash. A letter or a digit there would be an operator. -/
def escaped? (c : Char) : Option Atom := if c.isAlphanum || c = '\x00' then none else some (.char c)

/-- Reads the text of an expression without operators. -/
def read? : List Char → Option Expression
  | [] => some []
  | '\\' :: c :: rest => (escaped? c).bind fun atom => (read? rest).map (atom :: ·)
  | c :: rest => (plain? c).bind fun atom => (read? rest).map (atom :: ·)

/-- Whether a string has at its beginning what an expression asks for, the beginning being the start
    of the whole string or not. -/
def holdsAt (atStart : Bool) : Expression → List Char → Bool
  | [], _ => true
  | .char _ :: _, [] => false
  | .char c :: rest, d :: ds => c == d && holdsAt false rest ds
  | .start :: rest, cs => atStart && holdsAt atStart rest cs
  | .finish :: rest, cs => (cs.isEmpty || cs == ['\n']) && holdsAt atStart rest cs

/-- Whether a string has somewhere what an expression asks for. -/
def holdsFrom (atStart : Bool) (e : Expression) : List Char → Bool
  | [] => holdsAt atStart e []
  | c :: rest => holdsAt atStart e (c :: rest) || holdsFrom false e rest

/-- Whether the text of an expression is read and finds something in a string. -/
def finds (text s : String) : Bool := (read? text.toList).any fun e => holdsFrom true e s.toList

end Expression

namespace Query

/-- Whether a condition holds of what is stored under a name: a search of strings, a search of the
    elements of an array, or a condition on whole values. -/
def meets (stored : Option Bson) : Bson → Bool
  | .doc [("$regex", .str text), ("$options", .str "")] =>
    (Condition.seen stored).any fun v => match v with
    | .str s => Expression.finds text s
    | _ => false
  | .doc [("$elemMatch", .doc [("$in", .arr values)])] => (Condition.element values).holds id stored
  | condition => holds stored condition

/-- Whether a stored document meets a filter document that has one condition, or one of several
    such. -/
def searches (stored : List (String × Bson)) : List (String × Bson) → Bool
  | [(key, .arr parts)] => key == "$or" && parts.any fun part => match part with
    | .doc [(key, condition)] => meets (Entries.get? key stored) condition
    | _ => false
  | [(key, condition)] => meets (Entries.get? key stored) condition
  | _ => false

end Query

end DocQuery.Mongo
