import DocQuery.Literal
import DocQuery.Operator

namespace DocQuery

/-- What is wrong with the parameters of a request. -/
inductive RequestError where
  | emptyPath (raw : String)
  | emptySegment (raw : String)
  | unterminatedMarker (key : String)
  | malformedMarker (marker key : String)
  | notBoolean (key : String) (value : Literal)
  | existenceOperator (path : String) (op : Operator)
  | existenceNotBoolean (path : String)
  | badChain (raw : String)
  | emptySelection
  | emptySort
  | badOrder (raw : String)
  | badCount (key raw : String)
  | pageZero
  | pageOutOfRange (page : Nat)
  | badFlag (raw : String)
  | notStrings (key : String) (found : Json)
  | badValue (key : String) (found : Json)
deriving DecidableEq

namespace RequestError

/-- The wording of a cause. -/
def message : RequestError → String
  | emptyPath raw => s!"empty field path in `{raw}`"
  | emptySegment raw => s!"empty path segment in `{raw}`"
  | unterminatedMarker key => s!"unterminated OR marker in `{key}`"
  | malformedMarker marker key => s!"malformed OR marker `[{marker}]` in `{key}`"
  | notBoolean key value => s!"`{key}` expects true or false, got {value.shown}"
  | existenceOperator path op =>
    s!"`{path}` tests relationship existence and only supports isnull, got {op.word}"
  | existenceNotBoolean path => s!"`{path}` expects true or false"
  | badChain raw => s!"invalid populate spec `{raw}`"
  | emptySelection => "select cannot be empty"
  | emptySort => "`sort` cannot be empty"
  | badOrder raw => s!"invalid sort order `{raw}`"
  | badCount key raw => s!"invalid {key} `{raw}`"
  | pageZero => "`page` is 1-based"
  | pageOutOfRange page => s!"`page` {page} is out of range"
  | badFlag raw => s!"invalid count flag `{raw}`"
  | notStrings key found => s!"`{key}` expects strings, got {found.text}"
  | badValue key found => s!"invalid value for `{key}`: {found.text}"

end RequestError

/-- Why a JSON value is no document. -/
inductive DocumentError where
  | notObject
  | badId (found : Json)
  | badInstant (key raw : String)
  | instantNotText (key : String) (found : Json)
  | missingId
deriving DecidableEq

namespace DocumentError

/-- The wording of a cause. -/
def message : DocumentError → String
  | notObject => "expected a JSON object"
  | badId found => s!"document id must be a string, got {found.text}"
  | badInstant key raw => s!"invalid `{key}` timestamp `{raw}`"
  | instantNotText key found => s!"`{key}` must be a string, got {found.text}"
  | missingId => "Missing _id"

end DocumentError

/-- Why a value does not fit the form it is converted to. -/
inductive ShapeError where
  | wrongType (member expected : String)
  | tooManyItems (expected : Nat)
  | integerTooLarge (value : Int)
deriving DecidableEq

namespace ShapeError

/-- The wording of a cause. -/
def message : ShapeError → String
  | wrongType member expected => s!"`{member}` must be {expected}"
  | tooManyItems expected => s!"expected at most {expected} items"
  | integerTooLarge value => s!"{Number.intText value} does not fit in 64 signed bits"

end ShapeError

/-- Why a request fails. -/
inductive Failure where
  | malformed (cause : RequestError)
  | tooDeep (path : String) (depth max : Nat)
  | duplicateId (id collection : String)
  | invalidDocument (cause : DocumentError)
  | unfit (cause : ShapeError)
  | backend (reason : String)
deriving DecidableEq

namespace Failure

/-- The wording of a failure. -/
def message : Failure → String
  | malformed cause => "Parse error: " ++ cause.message
  | tooDeep path depth max =>
    s!"Unsupported filter depth: `{path}` traverses {depth} relations (max {max})"
  | duplicateId id collection => s!"Document {id} already exists in collection {collection}"
  | invalidDocument cause => "Invalid document: " ++ cause.message
  | unfit cause => "Serialization error: " ++ cause.message
  | backend reason => "Backend error: " ++ reason

/-- Whether the request itself is at fault, and not the documents or the store. -/
def isRequestFault : Failure → Bool
  | malformed _ | tooDeep .. => true
  | _ => false

end Failure

end DocQuery
