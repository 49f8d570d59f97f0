import DocQuery.Entries
import DocQuery.Json.Basic

namespace DocQuery.Json

mutual

/-- Whether the names of every object in a value and all numbers in it are as given. -/
def Throughout (names : List String → Prop) (number : Number → Prop) : Json → Prop
  | .num n => number n
  | .arr items => ThroughoutItems names number items
  | .obj members => names (Entries.names members) ∧ ThroughoutMembers names number members
  | .null | .bool _ | .str _ => True

@[inherit_doc Throughout]
def ThroughoutItems (names : List String → Prop) (number : Number → Prop) : List Json → Prop
  | [] => True
  | item :: rest => Throughout names number item ∧ ThroughoutItems names number rest

@[inherit_doc Throughout]
def ThroughoutMembers (names : List String → Prop) (number : Number → Prop) :
    List (String × Json) → Prop
  | [] => True
  | (_, value) :: rest => Throughout names number value ∧ ThroughoutMembers names number rest

end

section Decide

variable (names : List String → Prop) (number : Number → Prop) [DecidablePred names]
  [DecidablePred number]

mutual

/-- Decides a condition at every depth. -/
def decThroughout : (value : Json) → Decidable (Throughout names number value)
  | .num n => inferInstanceAs (Decidable (number n))
  | .arr items => decThroughoutItems items
  | .obj members =>
    have := decThroughoutMembers members
    inferInstanceAs
      (Decidable (names (Entries.names members) ∧ ThroughoutMembers names number members))
  | .null | .bool _ | .str _ => isTrue trivial

@[inherit_doc decThroughout]
def decThroughoutItems : (items : List Json) → Decidable (ThroughoutItems names number items)
  | [] => isTrue trivial
  | item :: rest =>
    have := decThroughout item
    have := decThroughoutItems rest
    inferInstanceAs (Decidable (Throughout names number item ∧ ThroughoutItems names number rest))

@[inherit_doc decThroughout]
def decThroughoutMembers :
    (members : List (String × Json)) → Decidable (ThroughoutMembers names number members)
  | [] => isTrue trivial
  | (_, value) :: rest =>
    have := decThroughout value
    have := decThroughoutMembers rest
    inferInstanceAs
      (Decidable (Throughout names number value ∧ ThroughoutMembers names number rest))

end

instance (value : Json) : Decidable (Throughout names number value) :=
  decThroughout names number value

end Decide

end DocQuery.Json
