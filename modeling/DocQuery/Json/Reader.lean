import DocQuery.Entries
import DocQuery.Json.Basic

namespace DocQuery.Json

/-- The text after the blanks that JSON allows between tokens. -/
def skipBlanks (cs : List Char) : List Char :=
  cs.dropWhile fun c => c == ' ' || c == '\n' || c == '\r' || c == '\t'

/-- The value of a hexadecimal digit. -/
def hexValue? (c : Char) : Option Nat :=
  if c.isDigit then some (c.toNat - '0'.toNat)
  else if 'a' ≤ c ∧ c ≤ 'f' then some (c.toNat - 'a'.toNat + 10)
  else if 'A' ≤ c ∧ c ≤ 'F' then some (c.toNat - 'A'.toNat + 10)
  else none

/-- The code unit that four hexadecimal digits name. -/
def codeUnit? (a b c d : Char) : Option Nat := do
  return (((← hexValue? a) * 16 + (← hexValue? b)) * 16 + (← hexValue? c)) *
    16 + (← hexValue? d)

/-- Reads a string up to its closing quote, which is consumed. The characters read so far come
    last first, and `high` is a high surrogate that waits for its partner. -/
def readString? (done : List Char) (high : Option Nat) : List Char → Option (String × List Char)
  | '"' :: rest => if high.isSome then none else some (String.ofList done.reverse, rest)
  | '\\' :: 'u' :: a :: b :: c :: d :: rest =>
    match codeUnit? a b c d, high with
    | none, _ => none
    | some unit, none =>
      if 0xD800 ≤ unit ∧ unit < 0xDC00 then readString? done (some unit) rest
      else if 0xDC00 ≤ unit ∧ unit < 0xE000 then none
      else readString? (Char.ofNat unit :: done) none rest
    | some unit, some first =>
      if 0xDC00 ≤ unit ∧ unit < 0xE000 then
        readString? (Char.ofNat (0x10000 + (first - 0xD800) * 0x400 + (unit - 0xDC00)) :: done)
          none rest
      else none
  | '\\' :: c :: rest =>
    let plain? : Option Char := match c with
      | '"' => some '"'
      | '\\' => some '\\'
      | '/' => some '/'
      | 'b' => some '\x08'
      | 'f' => some '\x0c'
      | 'n' => some '\n'
      | 'r' => some '\r'
      | 't' => some '\t'
      | _ => none
    match plain?, high with
    | some plain, none => readString? (plain :: done) none rest
    | _, _ => none
  | c :: rest => if high.isSome || c.toNat < 0x20 then none else readString? (c :: done) none rest
  | [] => none

/-- The number that a token spells: an integer if it has no point and no exponent and fits in 64
    bits, and else the nearest binary64 number. The text `-0` stands for the negative zero. -/
def numberOfToken? (token : List Char) : Option Number :=
  let (negative, digits) := match token with
    | '-' :: ds => (true, ds)
    | ds => (false, ds)
  let magnitude : Int := Decimal.ofDigits digits
  let asReal : Option Number := do Number.ofDouble? (← Decimal.read? token).toDouble
  if !digits.isEmpty && digits.all Char.isDigit && !(negative && magnitude == 0) then
    match Number.ofInt? (if negative then -magnitude else magnitude) with
    | some number => some number
    | none => asReal
  else asReal

/-- Whether a character may stand in a number. -/
def inNumber (c : Char) : Bool :=
  c.isDigit || c == '-' || c == '+' || c == '.' || c == 'e' || c == 'E'

/-- What follows a known word. -/
def expect? (word : List Char) (cs : List Char) : Option (List Char) :=
  if word <+: cs then some (cs.drop word.length) else none

mutual

/-- Reads one value from the front of a text. Each step down or along uses one unit of fuel, and a
    text as long as the fuel never uses it up. -/
def readValue? : Nat → List Char → Option (Json × List Char)
  | 0, _ => none
  | fuel + 1, cs =>
    match skipBlanks cs with
    | '"' :: rest => (readString? [] none rest).map fun (s, rest) => (.str s, rest)
    | '[' :: rest =>
      match skipBlanks rest with
      | ']' :: rest => some (.arr [], rest)
      | rest => (readItems? fuel rest).map fun (items, rest) => (.arr items, rest)
    | '\x7b' :: rest =>
      match skipBlanks rest with
      | '\x7d' :: rest => some (.obj [], rest)
      | rest =>
        (readMembers? fuel rest).map fun (members, rest) => (.obj (Entries.ofList members), rest)
    | 'n' :: rest => (expect? "ull".toList rest).map fun rest => (.null, rest)
    | 't' :: rest => (expect? "rue".toList rest).map fun rest => (.bool true, rest)
    | 'f' :: rest => (expect? "alse".toList rest).map fun rest => (.bool false, rest)
    | cs =>
      (numberOfToken? (cs.takeWhile inNumber)).map fun n => (.num n, cs.dropWhile inNumber)

/-- Reads the items of an array, with the closing bracket. -/
def readItems? : Nat → List Char → Option (List Json × List Char)
  | 0, _ => none
  | fuel + 1, cs =>
    match readValue? fuel cs with
    | none => none
    | some (item, rest) =>
      match skipBlanks rest with
      | ',' :: rest => (readItems? fuel rest).map fun (items, rest) => (item :: items, rest)
      | ']' :: rest => some ([item], rest)
      | _ => none

/-- Reads the members of an object, with the closing brace. -/
def readMembers? : Nat → List Char → Option (List (String × Json) × List Char)
  | 0, _ => none
  | fuel + 1, cs =>
    match skipBlanks cs with
    | '"' :: rest =>
      match readString? [] none rest with
      | none => none
      | some (name, rest) =>
        match skipBlanks rest with
        | ':' :: rest =>
          match readValue? fuel rest with
          | none => none
          | some (value, rest) =>
            match skipBlanks rest with
            | ',' :: rest =>
              (readMembers? fuel rest).map fun (members, rest) => ((name, value) :: members, rest)
            | '\x7d' :: rest => some ([(name, value)], rest)
            | _ => none
        | _ => none
    | _ => none

end

/-- The value that a text spells, with nothing but blanks around it. -/
def read? (s : String) : Option Json :=
  let cs := s.toList
  match readValue? (2 * cs.length + 2) cs with
  | some (value, rest) => if (skipBlanks rest).isEmpty then some value else none
  | none => none

end DocQuery.Json
