import DocQuery.Number.Double

namespace DocQuery

/-- The number `coefficient * 10 ^ exponent` with a sign of its own, since zero has two. -/
structure Decimal where
  negative : Bool
  coefficient : Nat
  exponent : Int
deriving DecidableEq, Repr

namespace Decimal

/-- The digits of a natural in base ten. -/
def digits (n : Nat) : List Char := Nat.toDigits 10 n

/-- The natural that a run of ASCII digits spells. -/
def ofDigits (ds : List Char) : Nat :=
  ds.foldl (fun n c => 10 * n + (c.toNat - '0'.toNat)) 0

/-- The nearest binary64 number. A decimal far outside the range of finite numbers is infinite or
    zero without being computed in full, whatever its exponent. -/
def toDouble (d : Decimal) : Double :=
  let firstPlace := (digits d.coefficient).length + d.exponent
  if d.coefficient = 0 ∨ firstPlace < -400 then Double.ofMagnitude d.negative 0
  else if 400 < firstPlace then Double.infinity d.negative
  else Double.ofRatio d.negative (d.coefficient * Nat.pow 10 d.exponent.toNat)
    (Nat.pow 10 (-d.exponent).toNat)

/-- Reads a run of digits with an optional point and more digits, at least one digit in all, then
    an optional exponent with an optional sign. Nothing may follow. -/
def readUnsigned? (negative : Bool) (cs : List Char) : Option Decimal :=
  let whole := cs.takeWhile Char.isDigit
  let afterWhole := cs.dropWhile Char.isDigit
  let (fraction, rest) := match afterWhole with
    | '.' :: tail => (tail.takeWhile Char.isDigit, tail.dropWhile Char.isDigit)
    | _ => ([], afterWhole)
  let mantissa := whole ++ fraction
  let finish (e : Int) : Option Decimal :=
    some ⟨negative, ofDigits mantissa, e - (fraction.length : Int)⟩
  let readExponent (below : Bool) (ds : List Char) : Option Decimal :=
    if ds.isEmpty || !ds.all Char.isDigit then none
    else finish (if below then -(ofDigits ds : Int) else ofDigits ds)
  if mantissa.isEmpty then none
  else match rest with
    | [] => finish 0
    | e :: tail =>
      if e = 'e' ∨ e = 'E' then
        match tail with
        | '-' :: ds => readExponent true ds
        | '+' :: ds => readExponent false ds
        | ds => readExponent false ds
      else none

/-- Reads a decimal with an optional sign in front. -/
def read? (cs : List Char) : Option Decimal :=
  match cs with
  | '-' :: rest => readUnsigned? true rest
  | '+' :: rest => readUnsigned? false rest
  | rest => readUnsigned? false rest

/-- Digits without the zeros at their end. -/
def withoutFinalZeros (ds : List Char) : List Char := (ds.reverse.dropWhile (· == '0')).reverse

/-- Only zeros are left out. -/
theorem withoutFinalZeros_append_zeros (ds : List Char) :
    ∃ count, withoutFinalZeros ds ++ List.replicate count '0' = ds := by
  have hzeros : ds.reverse.takeWhile (· == '0') =
      List.replicate (ds.reverse.takeWhile (· == '0')).length '0' :=
    List.eq_replicate_of_mem fun c hc => by
      simpa using List.all_eq_true.mp List.all_takeWhile c hc
  have hsplit := congrArg List.reverse
    (List.takeWhile_append_dropWhile (p := (· == '0')) (l := ds.reverse))
  rw [hzeros, List.reverse_append, List.reverse_replicate, List.reverse_reverse] at hsplit
  exact ⟨_, hsplit⟩

/-- Moves trailing zeros of the coefficient into the exponent. -/
def dropTrailingZeros (d : Decimal) : Decimal :=
  let kept := withoutFinalZeros (digits d.coefficient)
  if kept.isEmpty then d
  else { d with
    coefficient := ofDigits kept
    exponent := d.exponent + ((digits d.coefficient).length - kept.length : Nat) }

end Decimal

/-- Which of two equally near decimals of the same length is written. -/
inductive Tie where
  | toEven
  | upward
deriving DecidableEq, Repr

namespace Double

/-- The exponent of the first digit of a finite positive value: `e` with `10 ^ e ≤ value` and
    `value < 10 ^ (e + 1)`. -/
def decimalExponent (d : Double) : Int :=
  ((Decimal.digits (d.units * Nat.pow 10 400 / unitsPerOne)).length : Int) - 401

/-- A decimal with last place `10 ^ place` that reads back as the positive value, if there is one.
    When any such decimal exists, so does one of the two neighbours of the value. -/
def onGrid? (d : Double) (tie : Tie) (place : Int) : Option Decimal :=
  let num := d.units * Nat.pow 10 (-place).toNat
  let den := unitsPerOne * Nat.pow 10 place.toNat
  let below : Decimal := ⟨d.negative, num / den, place⟩
  let above : Decimal := ⟨d.negative, num / den + 1, place⟩
  let twice := 2 * (num % den)
  let preferAbove := den < twice ||
    (twice == den && (tie == .upward || below.coefficient % 2 == 1))
  match below.toDouble == d, above.toDouble == d with
  | true, true => some (if preferAbove then above else below)
  | true, false => some below
  | false, true => some above
  | false, false => none

/-- A decimal with the fewest digits that reads back as the number, the nearest of those. Seventeen
    digits always suffice for a finite number. -/
def shortest (d : Double) (tie : Tie) : Decimal :=
  if d.magnitude = 0 then ⟨d.negative, 0, 0⟩
  else
    let first := d.decimalExponent
    let found := (List.range 17).findSome? fun (n : Nat) => d.onGrid? tie (first - (n : Int))
    (found.getD ⟨d.negative, 0, 0⟩).dropTrailingZeros

/-- The finite number a text spells in decimal. -/
def read? (text : String) : Option Double :=
  match Decimal.read? text.toList with
  | some decimal =>
    let d := decimal.toDouble
    if d.isFinite then some d else none
  | none => none

end Double

end DocQuery
