import DocQuery.Mongo.Matching
import DocQuery.Mongo.Stored
import DocQuery.Proofs.Number.Worth
import DocQuery.Store.Evaluation

namespace DocQuery

namespace Number

/-- Whether a number is the value of a binary64 number. -/
def IsExact : Number → Prop
  | .int value _ => ∃ d : Double, d.toInt? = some value
  | .real _ _ => True

/-- An exact number is worth what the binary64 number is worth that it is converted to. -/
theorem IsExact.toDouble {n : Number} (hn : n.IsExact) : n.toDouble.isFinite = true := by
  cases n with
  | int value fits =>
    obtain ⟨d, hd⟩ := hn
    exact (Double.worth_ofInt hd).1
  | real value finite => exact finite

end Number

namespace Json

/-- Whether a value is null, a truth value, a text, or the number of a binary64 number. -/
def IsScalar : Json → Prop
  | .null | .bool _ | .str _ => True
  | .num n => n.IsExact
  | .arr _ | .obj _ => False

end Json

namespace Literal

/-- Whether a literal is no list, and finite if it is a number. -/
def IsScalar : Literal → Prop
  | .null | .bool _ | .text _ => True
  | .num d => d.isFinite = true
  | .list _ => False

end Literal

namespace Bson

/-- Whether a stored value is no array and no document. -/
def IsScalar : Bson → Prop
  | .arr _ | .doc _ => False
  | _ => True

private theorem worth?_double (d : Double) :
    (double d).worth? = if d.isNaN then none else some d.worth := rfl

/-- A number has an order with numbers alone. -/
theorem order?_of_worth? {stored : Bson} {w : Int} (hw : stored.worth? = some w) (other : Bson) :
    stored.order? other = other.worth?.map (compare w) := by
  have hopen : stored.order? other
      = stored.worth?.bind fun a => other.worth?.bind fun b => some (compare a b) := by
    cases stored with
    | int32 _ | int64 _ | double _ => cases other <;> rfl
    | null | bool _ | str _ | date _ | objectId _ | arr _ | doc _ => cases hw
  rw [hopen, hw, Option.bind_some, Option.map_eq_bind]
  rfl

private theorem sameValue_of_worth? {stored : Bson} {w : Int} (hw : stored.worth? = some w)
    (other : Bson) :
    stored.sameValue other = (stored.order? other == some .eq) := by
  cases stored with
  | int32 _ | int64 _ | double _ => cases other <;> rfl
  | null | bool _ | str _ | date _ | objectId _ | arr _ | doc _ => cases hw

end Bson

namespace Mongo

open Stored (ofJson)

/-- A stored number is worth what the JSON number is worth. -/
theorem worth?_of_ofJson {n : Number} {stored : Bson} (hn : n.IsExact)
    (hstored : ofJson (.num n) = .ok stored) : stored.worth? = some n.toDouble.worth := by
  cases n with
  | int value fits =>
    obtain ⟨d, hd⟩ := hn
    rw [ofJson] at hstored
    split at hstored
    · next hvalue =>
      cases hstored
      have hread : (Int64.ofInt value).toInt = value := Int64.toInt_ofInt_of_le fits.1 hvalue
      rw [Bson.worth?, hread, ← (Double.worth_ofInt hd).2]
      rfl
    · cases hstored
  | real value finite =>
    cases hstored
    rw [Bson.worth?_double, Double.isNaN_of_isFinite finite]
    rfl

/-- The values that are written out for a literal, without null. -/
def candidates (ordered : Bool) (literal : Literal) : List Bson :=
  (Filter.valuesOfItem ordered literal).filter fun v => !v.isNull

/-- The text of a literal that bounds may have: its own, if it is one. -/
def boundText (ordered : Bool) (literal : Literal) : Option String :=
  match ordered, literal with
  | true, .text s => some s
  | true, _ => none
  | false, literal => literal.asText

/-- The values of a literal are what it is read as, for each of the three types. -/
theorem any_candidates (ordered : Bool) (literal : Literal) (p : Bson → Bool) :
    (candidates ordered literal).any p =
      ((boundText ordered literal).any (fun s => p (.str s)) ||
        literal.asNumber.any (fun d => p (.double d)) || literal.asBool.any
          fun b => p (.bool b)) := by
  cases literal with
  | null | list _ => cases ordered <;> rfl
  | bool b =>
    have hread : (Literal.bool b).asNumber = none ∧
        (Literal.bool b).asBool = some b := ⟨rfl, rfl⟩
    cases ordered <;>
      simp [candidates, Filter.valuesOfItem, boundText, Literal.asText, hread,
        Bson.isNull, Bool.or_comm]
  | num d =>
    have hread : (Literal.num d).asNumber = some d ∧
        (Literal.num d).asBool = none := ⟨rfl, rfl⟩
    cases ordered <;>
      simp [candidates, Filter.valuesOfItem, boundText, Literal.asText, hread,
        Bson.isNull, Bool.or_comm]
  | text s =>
    have hvalues : boundText ordered (.text s) = some s := by cases ordered <;> rfl
    rw [hvalues]
    simp only [candidates, Filter.valuesOfItem]
    cases (Literal.text s).asNumber <;> cases (Literal.text s).asBool
      <;> simp [Bson.isNull, Bool.or_assoc]

/-- A stored number has no order with texts and truth values, and with a number the one that its
    JSON number has. -/
theorem order?_num {n : Number} {stored : Bson} (hn : n.IsExact)
    (hstored : ofJson (.num n) = .ok stored) :
    (∀ s, stored.order? (.str s) = none) ∧ (∀ b, stored.order? (.bool b) = none) ∧
      ∀ d, stored.order? (.double d) = n.toDouble.compare? d := by
  have hw := worth?_of_ofJson hn hstored
  refine ⟨fun s => Bson.order?_of_worth? hw _, fun b => Bson.order?_of_worth? hw _, fun d => ?_⟩
  rw [Bson.order?_of_worth? hw, Bson.worth?_double]
  cases hd : d.isNaN with
  | true => rw [Double.compare?_eq_of_isNaN (by rw [hd, Bool.or_true]), if_pos rfl, Option.map_none]
  | false => rw [Double.compare?_eq (Double.isNaN_of_isFinite hn.toDouble) hd,
    if_neg Bool.false_ne_true,
      Option.map_some]

/-- In an order, a stored value meets one of the values written out for a literal when it meets the
    literal. -/
theorem any_candidates_order? {value : Json} {stored : Bson} {literal : Literal}
    (hvalue : value.IsScalar) (hnull : value ≠ .null) (hstored : ofJson value = .ok stored)
    (meets : Ordering → Bool) :
    (candidates true literal).any (fun v => (stored.order? v).any meets)
      = (literal.order? value).any meets := by
  rw [any_candidates true literal]
  cases value with
  | null => exact absurd rfl hnull
  | bool b =>
    cases hstored
    have hstr : ∀ s, (Bson.bool b).order? (.str s) = none := fun _ => rfl
    have hdouble : ∀ d, (Bson.bool b).order? (.double d) = none := fun _ => rfl
    have hbool : ∀ c, (Bson.bool b).order? (.bool c) = some (compare b c) := fun _ => rfl
    cases hread : literal.asBool <;> simp [hstr, hdouble, hbool, Literal.order?, hread]
  | str s =>
    cases hstored
    have hstr : ∀ t, (Bson.str s).order? (.str t) = some (compare s t) := fun _ => rfl
    have hdouble : ∀ d, (Bson.str s).order? (.double d) = none := fun _ => rfl
    have hbool : ∀ c, (Bson.str s).order? (.bool c) = none := fun _ => rfl
    cases literal <;> simp [hstr, hdouble, hbool, Literal.order?, boundText]
  | num n =>
    obtain ⟨hstr, hbool, hdouble⟩ := order?_num hvalue hstored
    cases hnumber : literal.asNumber with
    | none => simp [hstr, hbool, Literal.order?, hnumber]
    | some d => simp [hstr, hbool, hdouble d, Literal.order?, hnumber]
  | arr _ | obj _ => cases hvalue

/-- A stored value equals one of the values written out for a literal when it equals the literal. -/
theorem any_candidates_sameValue {value : Json} {stored : Bson} {literal : Literal}
    (hvalue : value.IsScalar) (hnull : value ≠ .null) (hstored : ofJson value = .ok stored) :
    (candidates false literal).any stored.sameValue = literal.equals value := by
  rw [any_candidates false literal]
  cases value with
  | null => exact absurd rfl hnull
  | bool b =>
    cases hstored
    have hequals : literal.equals (.bool b) = (literal.asBool == some b) := by
      cases literal <;> rfl
    have hstr : ∀ s, (Bson.bool b).sameValue (.str s) = false := fun _ => rfl
    have hdouble : ∀ d, (Bson.bool b).sameValue (.double d) = false := fun _ => rfl
    have hbool : ∀ c, (Bson.bool b).sameValue (.bool c) = (c == b) := by
      intro c
      cases b <;> cases c <;> rfl
    rw [hequals]
    cases hread : literal.asBool <;> simp [hstr, hdouble, hbool]
  | str s =>
    cases hstored
    have hequals : literal.equals (.str s) = (literal.asText == some s) := by
      cases literal <;> rfl
    have hstr : ∀ t, (Bson.str s).sameValue (.str t) = (t == s) := by
      intro t
      have hsame : (Bson.str s).sameValue (.str t) = (some (compare s t) == some .eq) := rfl
      rw [hsame, Bool.eq_iff_iff, beq_iff_eq, beq_iff_eq, Option.some.injEq, Std.compare_eq_iff_eq,
        eq_comm]
    have hdouble : ∀ d, (Bson.str s).sameValue (.double d) = false := fun _ => rfl
    have hbool : ∀ c, (Bson.str s).sameValue (.bool c) = false := fun _ => rfl
    rw [hequals, boundText]
    cases hread : literal.asText <;> simp [hstr, hdouble, hbool]
  | num n =>
    have hequals : literal.equals (.num n) = literal.asNumber.any fun d =>
        d.sameValue n.toDouble := by
      cases literal <;> rfl
    have hsame := Bson.sameValue_of_worth? (worth?_of_ofJson hvalue hstored)
    obtain ⟨hstr, hbool, hdouble⟩ := order?_num hvalue hstored
    rw [hequals]
    cases hnumber : literal.asNumber with
    | none => simp [hsame, hstr, hbool]
    | some d => simp [hsame, hstr, hbool, hdouble d, Double.compare?_beq_eq]
  | arr _ | obj _ => cases hvalue

end Mongo

end DocQuery
