namespace DocQuery

/-- What the sign bit of a pattern weighs. -/
def Double.signWeight : Nat := 0x8000000000000000

/-- What the lowest exponent bit of a pattern weighs. Fractions lie below it. -/
def Double.fractionWeight : Nat := 0x10000000000000

/-- A binary64 number: its sign bit, and its exponent and fraction bits read as one natural. The
    magnitudes of finite numbers stand in the order of their values, so comparisons are those of
    integers. -/
structure Double where
  negative : Bool
  magnitude : Nat
  magnitude_lt : magnitude < Double.signWeight
deriving DecidableEq

namespace Double

/-- The magnitude of the two infinities. Finite numbers lie below it and NaNs above it. -/
def infinityMagnitude : Nat := 0x7FF0000000000000

/-- The number of a sign and a magnitude. A magnitude past the infinite one becomes infinite, so
    the result is never a NaN. -/
def ofMagnitude (negative : Bool) (magnitude : Nat) : Double :=
  ⟨negative, min magnitude infinityMagnitude,
    Nat.lt_of_le_of_lt (Nat.min_le_right _ _) (by decide)⟩

/-- Positive zero. -/
def zero : Double := ⟨false, 0, by decide⟩

instance : Inhabited Double := ⟨zero⟩

/-- The positive or negative infinity. -/
def infinity (negative : Bool) : Double := ofMagnitude negative infinityMagnitude

/-- The quiet NaN with no payload. -/
def nan : Double := ⟨false, 0x7FF8000000000000, by decide⟩

/-- The number stored as a 64-bit pattern. -/
def ofBits (bits : UInt64) : Double :=
  ⟨decide (signWeight ≤ bits.toNat), bits.toNat % signWeight, Nat.mod_lt _ (by decide)⟩

/-- The 64-bit pattern of a number, as a natural. -/
def bits (d : Double) : Nat := (if d.negative then signWeight else 0) + d.magnitude

def isNaN (d : Double) : Bool := decide (infinityMagnitude < d.magnitude)

def isFinite (d : Double) : Bool := decide (d.magnitude < infinityMagnitude)

/-- The magnitude with its sign. On numbers that are not NaN its order is the order of the values,
    and the two zeros share the key 0. -/
def key (d : Double) : Int := if d.negative then -(d.magnitude : Int) else d.magnitude

/-- The order of two values, or `none` when one of them is a NaN. -/
def compare? (a b : Double) : Option Ordering :=
  if a.isNaN || b.isNaN then none else some (compare a.key b.key)

/-- Equality of values: a NaN equals nothing and the two zeros are equal. -/
def sameValue (a b : Double) : Bool := !a.isNaN && !b.isNaN && a.key == b.key

/-- The place of a number in the total order of all bit patterns, which puts -0.0 just before 0.0,
    negative NaNs first and positive NaNs last. -/
def totalKey (d : Double) : Int := if d.negative then -1 - (d.magnitude : Int) else d.magnitude

/-- The total order of bit patterns. -/
def totalCompare (a b : Double) : Ordering := compare a.totalKey b.totalKey

/-- The quotient `num / den` rounded to an integer, a half going to the even neighbour. -/
def roundHalfEven (num den : Nat) : Nat :=
  let quotient := num / den
  let twice := 2 * (num % den)
  if den < twice || (twice == den && quotient % 2 == 1) then quotient + 1 else quotient

/-- How many of the least positive number make up one. -/
def unitsPerOne : Nat := Nat.pow 2 1074

/-- The number nearest to `num / den`, ties to even, with the given sign. In units of the least
    positive number the quotient is scaled down until at most 53 bits stand before the point; the
    carry of a rounding up to 54 bits moves into the exponent by itself. -/
def ofRatio (negative : Bool) (num den : Nat) : Double :=
  let scaled := num * unitsPerOne
  let shift := (scaled / den).log2 - 52
  ofMagnitude negative (shift * fractionWeight + roundHalfEven scaled (den * Nat.pow 2 shift))

/-- The number nearest to an integer. -/
def ofInt (i : Int) : Double := ofRatio (decide (i < 0)) i.natAbs 1

/-- The absolute value of a finite number is `significand * 2 ^ shift` in units of the least
    positive number. -/
def shift (d : Double) : Nat := d.magnitude / fractionWeight - 1

@[inherit_doc shift]
def significand (d : Double) : Nat :=
  if d.magnitude < fractionWeight then d.magnitude
  else fractionWeight + d.magnitude % fractionWeight

/-- The absolute value of a finite number, in units of the least positive number. -/
def units (d : Double) : Nat := d.significand * Nat.pow 2 d.shift

/-- The integer of the same value, where a finite number has one. -/
def toInt? (d : Double) : Option Int :=
  if d.isFinite && d.units % unitsPerOne == 0 then
    let absolute : Int := (d.units / unitsPerOne : Nat)
    some (if d.negative then -absolute else absolute)
  else none

end Double

end DocQuery
