import DocQuery.Document.Basic
import DocQuery.Mongo.Key
import DocQuery.Predicate

namespace DocQuery.Mongo

/-- A pattern for strings: a literal text, tied to the start or the end of the string or not. -/
structure Pattern where
  atStart : Bool
  text : String
  atEnd : Bool
deriving DecidableEq, Repr

namespace Pattern

/-- The characters that stand for themselves in a regular expression only after a backslash. -/
def special : List Char :=
  ['\\', '.', '+', '*', '?', '(', ')', '|', '[', ']', '\x7b', '\x7d', '^', '$', '#', '&', '-', '~']

/-- The regular expression of one character. -/
def escapeChar (c : Char) : List Char := if c ∈ special then ['\\', c] else [c]

/-- The regular expression of a pattern. -/
def expression (p : Pattern) : String :=
  String.ofList <|
    (if p.atStart then ['^'] else []) ++ p.text.toList.flatMap escapeChar ++
    (if p.atEnd then ['$'] else [])

end Pattern

/-- A one-sided bound. -/
inductive Bound where
  | gt | gte | lt | lte
deriving DecidableEq, Repr

/-- What a filter asks of the values under one name. -/
inductive Condition where
  /-- Some value equals one of these. -/
  | within (values : List Bson)
  /-- No value equals any of these. -/
  | without (values : List Bson)
  | bound (side : Bound) (value : Bson)
  | pattern (p : Pattern) (ignoreCase : Bool)
  /-- The value is an array, and an element equals one of these. -/
  | element (values : List Bson)
  /-- There is no value, or it is null. -/
  | absent
  | present

/-- A MongoDB filter. -/
inductive Filter where
  | all (parts : List Filter)
  | any (parts : List Filter)
  | on (key : String) (condition : Condition)

/-- The name of a field as it is stored. The id and the instants have names of their own. -/
def storedField (field : String) : String :=
  if field = Document.idField then Key.id
  else if field = Document.createdField then Key.created
  else if field = Document.updatedField then Key.updated
  else Key.escape field

/-- Whether a field holds instants. -/
def isInstantField (field : String) : Bool :=
  field == Document.createdField || field == Document.updatedField

namespace Filter

/-- A filter that no document matches. -/
def nothing : Filter := .on Key.id (.within [])

/-- The stored values that one literal may equal. In a bound, numbers and truth values are kept off
    stored strings. A list inside of a list equals none. -/
def valuesOfItem (ordered : Bool) (item : Literal) : List Bson :=
  match item with
  | .null => [.null]
  | .bool b => .bool b :: if ordered then [] else [.str (Json.boolText b)]
  | .num d => .double d :: if ordered then [] else (item.asText.map Bson.str).toList
  | .text s =>
    .str s :: (item.asNumber.map Bson.double).toList ++ (item.asBool.map Bson.bool).toList
  | .list _ => []

/-- The stored values that a literal may equal in a field: values of one type alone are compared,
    where a literal is read for the type that is stored. In a field that holds instants those are
    the dates that its items name. -/
def values (field : String) (ordered : Bool) (literal : Literal) : List Bson :=
  if isInstantField field then
    literal.items.filterMap fun item =>
      (item.asText.bind Instant.readBound?).map fun t => .date t.epochMillis
  else literal.items.flatMap (valuesOfItem ordered)

/-- The bound that an operator sets. -/
def boundOf? : Operator → Option Bound
  | .gt => some .gt
  | .gte => some .gte
  | .lt => some .lt
  | .lte => some .lte
  | _ => none

/-- The filter for a string operator. A literal without a text matches nothing. -/
def patternOn (key : String) (op : Operator) (literal : Literal) : Filter :=
  match literal.asText with
  | none => nothing
  | some text =>
    let atStart := op = .startsWith ∨ op = .istartsWith
    let atEnd := op = .endsWith ∨ op = .iendsWith
    let ignoreCase := op = .icontains ∨ op = .istartsWith ∨ op = .iendsWith
    .on key (.pattern ⟨decide atStart, text, decide atEnd⟩ (decide ignoreCase))

/-- The filter for one test. Null is a value of no test but the one for null. -/
def ofTest (field : String) (op : Operator) (literal : Literal) : Filter :=
  let key := storedField field
  let candidates := values field (boundOf? op).isSome literal
  let candidates := if op = .isNull then candidates else candidates.filter fun v => !v.isNull
  match op with
  | .eq | .isIn | .overlaps =>
    if candidates.isEmpty then nothing else .on key (.within candidates)
  | .ne | .notIn => .on key (.without candidates)
  | .gt | .gte | .lt | .lte =>
    match candidates.map fun v => Filter.on key (.bound ((boundOf? op).getD .gt) v) with
    | [] => nothing
    | [single] => single
    | several => .any several
  | .contains | .icontains =>
    let pattern := patternOn key op literal
    if candidates.isEmpty then pattern else .any [pattern, .on key (.element candidates)]
  | .startsWith | .istartsWith | .endsWith | .iendsWith => patternOn key op literal
  | .isNull =>
    match literal.asBool with
    | some true => .on key .absent
    | some false => .on key .present
    | none => nothing

mutual

/-- The filter for a predicate. An empty disjunction becomes a filter that no document matches. -/
def ofPredicate : Predicate → Filter
  | .all parts => .all (ofPredicates parts)
  | .any [] => nothing
  | .any parts => .any (ofPredicates parts)
  | .test field op literal => ofTest field op literal

/-- The filters for several predicates. -/
def ofPredicates : List Predicate → List Filter
  | [] => []
  | p :: rest => ofPredicate p :: ofPredicates rest

end

/-- The name of a bound. -/
def boundName : Bound → String
  | .gt => "$gt"
  | .gte => "$gte"
  | .lt => "$lt"
  | .lte => "$lte"

/-- A condition as it is sent. -/
def conditionValue : Condition → Bson
  | .within values => .doc [("$in", .arr values)]
  | .without values => .doc [("$nin", .arr values)]
  | .bound side value => .doc [(boundName side, value)]
  | .pattern p ignoreCase =>
    .doc [("$regex", .str p.expression), ("$options", .str (if ignoreCase then "i" else ""))]
  | .element values => .doc [("$elemMatch", .doc [("$in", .arr values)])]
  | .absent => .null
  | .present => .doc [("$ne", .null)]

mutual

/-- A filter as it is sent. A conjunction without parts is the empty document. -/
def document : Filter → List (String × Bson)
  | .all [] => []
  | .all parts => [("$and", .arr (documents parts))]
  | .any parts => [("$or", .arr (documents parts))]
  | .on key condition => [(key, conditionValue condition)]

/-- The filters of a list as they are sent. -/
def documents : List Filter → List Bson
  | [] => []
  | f :: rest => .doc (document f) :: documents rest

end

end Filter

end DocQuery.Mongo
