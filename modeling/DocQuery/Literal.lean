import DocQuery.Json.Printer
import DocQuery.Text.Pieces

namespace DocQuery

/-- A value of a filter. It meets stored values of any type, so each comparison reads it for the
    type that is stored. A reading that fails is no match, and never an error. -/
inductive Literal where
  | null
  | bool (value : Bool)
  | num (value : Double)
  | text (value : String)
  | list (items : List Literal)
deriving Inhabited

namespace Literal

mutual

/-- Decides whether two literals are the same. -/
def decEq : (a b : Literal) → Decidable (a = b)
  | .null, .null => isTrue rfl
  | .bool a, .bool b => decidable_of_iff (a = b) (by simp)
  | .num a, .num b => decidable_of_iff (a = b) (by simp)
  | .text a, .text b => decidable_of_iff (a = b) (by simp)
  | .list as, .list bs =>
    match decEqItems as bs with
    | isTrue h => isTrue (by rw [h])
    | isFalse h => isFalse (by simpa using h)
  | .null, .bool _ | .null, .num _ | .null, .text _ | .null, .list _
  | .bool _, .null | .bool _, .num _ | .bool _, .text _ | .bool _, .list _
  | .num _, .null | .num _, .bool _ | .num _, .text _ | .num _, .list _
  | .text _, .null | .text _, .bool _ | .text _, .num _ | .text _, .list _
  | .list _, .null | .list _, .bool _ | .list _, .num _ | .list _, .text _ => isFalse (by simp)

@[inherit_doc decEq]
def decEqItems : (as bs : List Literal) → Decidable (as = bs)
  | [], [] => isTrue rfl
  | [], _ :: _ => isFalse (by simp)
  | _ :: _, [] => isFalse (by simp)
  | a :: as, b :: bs =>
    match decEq a b, decEqItems as bs with
    | isTrue h, isTrue hs => isTrue (by rw [h, hs])
    | isFalse h, _ => isFalse fun e => h (List.cons.inj e).1
    | _, isFalse h => isFalse fun e => h (List.cons.inj e).2

end

instance : DecidableEq Literal := decEq

mutual

/-- The literal of a JSON value. Numbers become the nearest binary64 number, and an object becomes
    its compact text. -/
def ofJson : Json → Literal
  | .null => .null
  | .bool b => .bool b
  | .num n => .num n.toDouble
  | .str s => .text s
  | .arr items => .list (ofJsonItems items)
  | .obj members => .text (Json.obj members).text

@[inherit_doc ofJson]
def ofJsonItems : List Json → List Literal
  | [] => []
  | item :: rest => ofJson item :: ofJsonItems rest

end

mutual

/-- The JSON value of a literal. A number that is not finite becomes null. -/
def toJson : Literal → Json
  | .null => .null
  | .bool b => .bool b
  | .num d =>
    match Number.ofDouble? d with
    | some n => .num n
    | none => .null
  | .text s => .str s
  | .list items => .arr (toJsonItems items)

@[inherit_doc toJson]
def toJsonItems : List Literal → List Json
  | [] => []
  | item :: rest => toJson item :: toJsonItems rest

end

/-- The literal read as a number: a number itself, or a text that spells a finite one. -/
def asNumber : Literal → Option Double
  | .num d => some d
  | .text s => Double.read? s
  | _ => none

/-- The literal read as a truth value: one itself, or the word for it with letters of any case. -/
def asBool : Literal → Option Bool
  | .bool b => some b
  | .text s =>
    let word := Text.asciiLowercase s
    if word = "true" then some true else if word = "false" then some false else none
  | _ => none

/-- Numbers as a query string would show them: positional however large or small. -/
def plainFormat : NumberFormat := ⟨none, false, false, .upward⟩

/-- The text of a number. Integers below 10 ^ 15 are written without a sign on zero. -/
def numberText (d : Double) : String :=
  match d.toInt? with
  | some i => if i.natAbs < 1000000000000000 then Number.intText i else plainFormat.write d
  | none => plainFormat.write d

/-- The literal read as text. Null and lists have no text. -/
def asText : Literal → Option String
  | .text s => some s
  | .num d => some (numberText d)
  | .bool b => some (Json.boolText b)
  | .null | .list _ => none

/-- The members of a list, or the literal itself as the only one. -/
def items : Literal → List Literal
  | .list items => items
  | scalar => [scalar]

mutual

/-- Whether a stored value, taken as a whole, equals the literal. Lists equal arrays of the same
    length with equal members; text equals numbers and truth values that it spells, and null if it
    spells that; a number equals the string of its text. -/
def equals : Literal → Json → Bool
  | .list items, .arr values => equalsEach items values
  | .list _, _ => false
  | .null, .null => true
  | .text s, .null => s == "null"
  | _, .null => false
  | literal, .bool b => literal.asBool == some b
  | literal, .num n => literal.asNumber.any fun d => d.sameValue n.toDouble
  | literal, .str s => literal.asText == some s
  | _, .arr _ => false
  | _, .obj _ => false

/-- Whether two lists have the same length and equal members in turn. -/
def equalsEach : List Literal → List Json → Bool
  | [], [] => true
  | item :: items, value :: values => item.equals value && equalsEach items values
  | _, _ => false

end

/-- Whether a stored value equals the literal as a field: as a whole, or, for an array, by one of
    its elements. -/
def equalsField (literal : Literal) (stored : Json) : Bool :=
  literal.equals stored ||
    match stored with
    | .arr values => values.any literal.equals
    | _ => false

/-- The order of a stored value relative to the literal, where they have one. Numbers order with
    numbers, strings with text alone, and truth values with truth values. -/
def order? (literal : Literal) : Json → Option Ordering
  | .num n => literal.asNumber.bind fun d => n.toDouble.compare? d
  | .str s =>
    match literal with
    | .text t => some (compare s t)
    | _ => none
  | .bool b => literal.asBool.map fun c => compare b c
  | _ => none

/-- Numbers in messages: positional from 10 ^ -4 up to 10 ^ 16, with a point throughout. -/
def messageFormat : NumberFormat := ⟨some (-4, 16), true, false, .upward⟩

mutual

/-- A literal as messages show it: its type, and its value in round brackets. -/
def shown : Literal → String
  | .null => "Null"
  | .bool b => "Bool(" ++ Json.boolText b ++ ")"
  | .num d => "Num(" ++ messageFormat.write d ++ ")"
  | .text s => "Text(" ++ Text.quoted s ++ ")"
  | .list items => "List([" ++ ", ".intercalate (shownItems items) ++ "])"

/-- The items of a list as messages show them. -/
def shownItems : List Literal → List String
  | [] => []
  | item :: rest => shown item :: shownItems rest

end

end Literal

end DocQuery
