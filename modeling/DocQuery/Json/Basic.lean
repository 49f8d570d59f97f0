import DocQuery.Number.Format

namespace DocQuery

/-- A number of a document: an integer of 64 bits, signed or unsigned, or else a finite binary64
    number. The two are kept apart, since `7` and `7.0` print differently. -/
inductive Number where
  | int (value : Int) (fits : -0x8000000000000000 ≤ value ∧ value < 0x10000000000000000)
  | real (value : Double) (finite : value.isFinite = true)
deriving DecidableEq

namespace Number

/-- An integer as a number, where it has 64 bits. -/
def ofInt? (i : Int) : Option Number :=
  if fits : -0x8000000000000000 ≤ i ∧ i < 0x10000000000000000 then some (.int i fits) else none

/-- A binary64 number as a number of a document, where it is finite. -/
def ofDouble? (d : Double) : Option Number :=
  if finite : d.isFinite = true then some (.real d finite) else none

/-- The nearest binary64 number. Integers past 2 ^ 53 may share theirs with a neighbour. -/
def toDouble : Number → Double
  | .int value _ => Double.ofInt value
  | .real value _ => value

/-- Numbers in JSON text: positional from 10 ^ -5 up to 10 ^ 16, with a point in every number that
    is not an integer of 64 bits. -/
def jsonFormat : NumberFormat := ⟨some (-5, 16), true, true, .toEven⟩

/-- An integer in decimal digits. -/
def intText (i : Int) : String :=
  String.ofList (if i < 0 then '-' :: Decimal.digits i.natAbs else Decimal.digits i.natAbs)

/-- The JSON text of a number. -/
def text : Number → String
  | .int value _ => intText value
  | .real value _ => jsonFormat.write value

end Number

/-- A JSON value. The members of an object keep their order. -/
inductive Json where
  | null
  | bool (value : Bool)
  | num (value : Number)
  | str (value : String)
  | arr (items : List Json)
  | obj (members : List (String × Json))
deriving Inhabited

namespace Json

mutual

/-- Decides whether two values are the same, member order included. -/
def decEq : (a b : Json) → Decidable (a = b)
  | .null, .null => isTrue rfl
  | .bool a, .bool b => decidable_of_iff (a = b) (by simp)
  | .num a, .num b => decidable_of_iff (a = b) (by simp)
  | .str a, .str b => decidable_of_iff (a = b) (by simp)
  | .arr as, .arr bs =>
    match decEqItems as bs with
    | isTrue h => isTrue (by rw [h])
    | isFalse h => isFalse (by simpa using h)
  | .obj as, .obj bs =>
    match decEqMembers as bs with
    | isTrue h => isTrue (by rw [h])
    | isFalse h => isFalse (by simpa using h)
  | .null, .bool _ | .null, .num _ | .null, .str _ | .null, .arr _ | .null, .obj _
  | .bool _, .null | .bool _, .num _ | .bool _, .str _ | .bool _, .arr _ | .bool _, .obj _
  | .num _, .null | .num _, .bool _ | .num _, .str _ | .num _, .arr _ | .num _, .obj _
  | .str _, .null | .str _, .bool _ | .str _, .num _ | .str _, .arr _ | .str _, .obj _
  | .arr _, .null | .arr _, .bool _ | .arr _, .num _ | .arr _, .str _ | .arr _, .obj _
  | .obj _, .null | .obj _, .bool _ | .obj _, .num _ | .obj _, .str _ | .obj _, .arr _ =>
    isFalse (by simp)

@[inherit_doc decEq]
def decEqItems : (as bs : List Json) → Decidable (as = bs)
  | [], [] => isTrue rfl
  | [], _ :: _ => isFalse (by simp)
  | _ :: _, [] => isFalse (by simp)
  | a :: as, b :: bs =>
    match decEq a b, decEqItems as bs with
    | isTrue h, isTrue hs => isTrue (by rw [h, hs])
    | isFalse h, _ => isFalse fun e => h (List.cons.inj e).1
    | _, isFalse h => isFalse fun e => h (List.cons.inj e).2

@[inherit_doc decEq]
def decEqMembers : (as bs : List (String × Json)) → Decidable (as = bs)
  | [], [] => isTrue rfl
  | [], _ :: _ => isFalse (by simp)
  | _ :: _, [] => isFalse (by simp)
  | (k, a) :: as, (l, b) :: bs =>
    match decEq a b, decEqMembers as bs, inferInstanceAs (Decidable (k = l)) with
    | isTrue h, isTrue hs, isTrue hk => isTrue (by rw [h, hs, hk])
    | isFalse h, _, _ => isFalse fun e => h (Prod.mk.inj (List.cons.inj e).1).2
    | _, isFalse h, _ => isFalse fun e => h (List.cons.inj e).2
    | _, _, isFalse h => isFalse fun e => h (Prod.mk.inj (List.cons.inj e).1).1

end

instance : DecidableEq Json := decEq

end Json

end DocQuery
