import DocQuery.Config
import DocQuery.Query.Basic

namespace DocQuery

/-- The keys that are not filter clauses. -/
inductive ReservedKey where
  | populate | select | sort | order | limit | offset | page | count
deriving DecidableEq, Repr

namespace ReservedKey

/-- The text of a key. -/
def word : ReservedKey → String
  | .populate => "populate"
  | .select => "select"
  | .sort => "sort"
  | .order => "order"
  | .limit => "limit"
  | .offset => "offset"
  | .page => "page"
  | .count => "count"

/-- All reserved keys. -/
def all : List ReservedKey := [.populate, .select, .sort, .order, .limit, .offset, .page, .count]

/-- The reserved key of a text, if it is one. -/
def ofWord? (key : String) : Option ReservedKey := all.find? fun k => k.word = key

/-- Whether an array of strings may stand for the value, as the items of a comma list. -/
def takesItems : ReservedKey → Bool
  | .populate | .select => true
  | _ => false

end ReservedKey

/-- Parameters that were read. Members that were not given are empty. -/
structure Params where
  clauses : List Clause := []
  chains : List Chain := []
  select : Option (List String) := none
  sort : Option String := none
  direction : Option Direction := none
  limit : Option Nat := none
  offset : Option Nat := none
  /-- The number of a page, counted from 1. -/
  page : Option Nat := none
  count : Option Bool := none
deriving DecidableEq

namespace Params

/-- Reads a count of 64 bits without blanks around it: ASCII digits, with at most a plus sign in
    front. -/
def parseCount (key : ReservedKey) (raw : String) : Except RequestError Nat :=
  let trimmed := (Text.trim raw).toList
  let digits := match trimmed with
    | '+' :: rest => rest
    | cs => cs
  let value := Decimal.ofDigits digits
  if digits.isEmpty || !digits.all Char.isDigit || decide (Config.maxCount < value) then
    .error (.badCount key.word raw)
  else .ok value

/-- Reads the fields to keep: a comma list with at least one item, or a star for all. -/
def parseSelect (raw : String) : Except RequestError (Option (List String)) :=
  if Text.trim raw = "*" then .ok none
  else
    match Text.commaItems raw with
    | [] => .error .emptySelection
    | fields => .ok (some fields)

/-- Reads the field to order by. A hyphen in front makes the order descending. -/
def parseSort (raw : String) : Except RequestError (String × Option Direction) :=
  let trimmed := Text.trim raw
  let (field, direction) := match Text.dropStart? "-" trimmed with
    | some field => (field, some Direction.descending)
    | none => (trimmed, none)
  if field = "" then .error .emptySort else .ok (field, direction)

/-- Reads whether to count. -/
def parseFlag (raw : String) : Except RequestError Bool :=
  let word := Text.asciiLowercase (Text.trim raw)
  if word = "true" ∨ word = "1" then .ok true
  else if word = "false" ∨ word = "0" then .ok false
  else .error (.badFlag raw)

/-- Takes in the value of a reserved key. Chains add up, and of other members the last value
    stays. -/
def assign (key : ReservedKey) (raw : String) (p : Params) : Except RequestError Params :=
  match key with
  | .populate => do return { p with chains := p.chains ++ (← Chain.parseList raw) }
  | .select => do return { p with select := ← parseSelect raw }
  | .sort => do
    let (field, direction) ← parseSort raw
    return { p with sort := some field, direction := direction <|> p.direction }
  | .order => do return { p with direction := some (← Direction.parse raw) }
  | .limit => do return { p with limit := some (← parseCount key raw) }
  | .offset => do return { p with offset := some (← parseCount key raw) }
  | .page => do
    let page ← parseCount key raw
    if page = 0 then .error .pageZero else return { p with page := some page }
  | .count => do return { p with count := some (← parseFlag raw) }

/-- Takes in a filter clause. -/
def addClause (key : String) (raw : RawValue) (p : Params) : Except RequestError Params := do
  return { p with clauses := p.clauses ++ [← Clause.parse key raw] }

/-- Takes in a text pair. -/
def addPair (p : Params) (pair : String × String) : Except RequestError Params :=
  match ReservedKey.ofWord? pair.1 with
  | some key => p.assign key pair.2
  | none => p.addClause pair.1 (.text pair.2)

/-- The text of a JSON value of a reserved key. Scalars stand for their text, and an array of
    strings for a comma list where the key takes one. -/
def reservedText (key : ReservedKey) (value : Json) : Except RequestError String :=
  match value with
  | .str s => .ok s
  | .num n => .ok n.text
  | .bool b => .ok (Json.boolText b)
  | .arr items =>
    if key.takesItems then do
      let texts ← items.mapM fun item => match item with
        | .str s => .ok s
        | other => .error (.notStrings key.word other)
      return ",".intercalate texts
    else .error (.badValue key.word value)
  | _ => .error (.badValue key.word value)

/-- Takes in a member of a JSON object. -/
def addMember (p : Params) (member : String × Json) : Except RequestError Params :=
  match ReservedKey.ofWord? member.1 with
  | some key => do p.assign key (← reservedText key member.2)
  | none => p.addClause member.1 (.json member.2)

/-- Reads text pairs in their order. The first fault counts. -/
def parse (pairs : List (String × String)) : Except RequestError Params := pairs.foldlM addPair {}

/-- Reads the members of a JSON object in their order. The first fault counts. -/
def parseJson (members : List (String × Json)) : Except RequestError Params :=
  members.foldlM addMember {}

/-- The offset that parameters ask for. A page counts in page sizes as the engine gives them, and
    has to start within 64 bits. -/
def startOffset (p : Params) (config : Config) : Except RequestError Nat :=
  match p.page with
  | some page =>
    let start := (page - 1) * config.clampLimit p.limit
    if Config.maxCount < start then .error (.pageOutOfRange page) else .ok start
  | none => .ok (p.offset.getD 0)

/-- The query that parameters ask for. -/
def toQuery (p : Params) (collection : String) (config : Config) : Except RequestError Query := do
  let offset ← p.startOffset config
  return {
    collection
    filter := Filter.ofClauses p.clauses
    chains := p.chains
    select := p.select
    sort := p.sort
    direction := p.direction.getD .ascending
    limit := p.limit
    offset
    countTotal := p.count.getD true }

end Params

end DocQuery
