import DocQuery.Number.Decimal

namespace DocQuery

/-- How a number is written. -/
structure NumberFormat where
  /-- The exponents of the first digit that are written positionally: from the first bound up to,
      but not including, the second. `none` writes every number positionally. -/
  positional : Option (Int × Int)
  /-- Whether a positional number without a fraction ends in `.0`. -/
  pointZero : Bool
  /-- Whether a positive exponent carries a plus sign. -/
  plusSign : Bool
  tie : Tie

namespace NumberFormat

/-- The sign, and then the digits around a point. -/
def writePositional (format : NumberFormat) (digits : List Char) (exponent : Int) : List Char :=
  let count := digits.length
  if exponent < 0 then
    '0' :: '.' :: (List.replicate (-exponent - 1).toNat '0' ++ digits)
  else
    let places := exponent.toNat + 1
    if count ≤ places then
      digits ++ List.replicate (places - count) '0' ++ (if format.pointZero then ['.', '0'] else [])
    else digits.take places ++ '.' :: digits.drop places

/-- One digit, the rest after a point, and the exponent of the first. -/
def writeExponential (format : NumberFormat) (digits : List Char) (exponent : Int) : List Char :=
  let mantissa := match digits with
    | d :: r :: rest => d :: '.' :: r :: rest
    | ds => ds
  let sign := if exponent < 0 then ['-'] else if format.plusSign then ['+'] else []
  mantissa ++ 'e' :: sign ++ Decimal.digits exponent.natAbs

/-- The text of a number. NaN and the infinities have the same words in every format. -/
def write (format : NumberFormat) (d : Double) : String :=
  if d.isNaN then "NaN"
  else
    let unsigned :=
      if !d.isFinite then ['i', 'n', 'f']
      else
        let decimal := d.shortest format.tie
        let digits := Decimal.digits decimal.coefficient
        let exponent := decimal.exponent + (digits.length : Int) - 1
        let inRange := match format.positional with
          | none => true
          | some (low, high) => decide (low ≤ exponent ∧ exponent < high)
        if inRange then format.writePositional digits exponent
        else format.writeExponential digits exponent
    String.ofList (if d.negative then '-' :: unsigned else unsigned)

end NumberFormat

end DocQuery
