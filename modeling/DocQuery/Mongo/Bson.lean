import DocQuery.Json.Printer
import DocQuery.Literal
import DocQuery.Time.Instant

namespace DocQuery

/-- A stored value. Dates are milliseconds since the start of 1970, and an object id is given by its
    hexadecimal digits. -/
inductive Bson where
  | null
  | bool (value : Bool)
  | str (value : String)
  | double (value : Double)
  | int32 (value : Int32)
  | int64 (value : Int64)
  | date (millis : Int)
  | objectId (hex : String)
  | arr (items : List Bson)
  | doc (members : List (String × Bson))
deriving Inhabited

namespace Bson

/-- The last year of the dates that are shown by day and time. The first is as far before year 0. -/
def lastShownYear : Int := 999999

/-- A date as text: the day, the time of day with a fraction of at least one digit, and the offset
    of UTC. A date outside the years that are shown so stands as its milliseconds. -/
def dateText (millis : Int) : String :=
  if Instant.yearStart (-lastShownYear) ≤ millis ∧
  millis < Instant.yearStart (lastShownYear + 1) then
    let t := Instant.ofEpochMillis millis
    let fraction := match Decimal.withoutFinalZeros t.fraction with
      | [] => ['0']
      | digits => digits
    String.ofList <|
      Instant.dayText t.date ++ ' ' :: Decimal.digits t.hour ++ ':' :: t.minuteText ++
      '.' :: fraction ++ [' ', '+', '0', '0', ':', '0', '0', ':', '0', '0']
  else Number.intText millis

mutual

/-- A stored value as text. -/
def text : Bson → String
  | .null => "null"
  | .bool b => Json.boolText b
  | .str s => "\"" ++ s ++ "\""
  | .double d => Literal.plainFormat.write d
  | .int32 i => Number.intText i.toInt
  | .int64 i => Number.intText i.toInt
  | .date millis => "DateTime(\"" ++ dateText millis ++ "\")"
  | .objectId hex => "ObjectId(\"" ++ hex ++ "\")"
  | .arr items => "[" ++ ", ".intercalate (itemTexts items) ++ "]"
  | .doc [] => "\x7b\x7d"
  | .doc members => "\x7b " ++ ", ".intercalate (memberTexts members) ++ " \x7d"

/-- The texts of the items of an array. -/
def itemTexts : List Bson → List String
  | [] => []
  | item :: rest => text item :: itemTexts rest

/-- The texts of the members of a document, each with its name. -/
def memberTexts : List (String × Bson) → List String
  | [] => []
  | (name, value) :: rest => ("\"" ++ name ++ "\": " ++ text value) :: memberTexts rest

end

/-- Whether the value is null. -/
def isNull : Bson → Bool
  | .null => true
  | _ => false

end Bson

end DocQuery
