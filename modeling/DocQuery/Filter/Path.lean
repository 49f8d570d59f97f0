import DocQuery.Failure

namespace DocQuery

/-- The relations that are walked, and the name of the field at the end. With an empty name there,
    the path asks whether the last relation has a target at all. -/
structure FieldPath where
  relations : List String
  target : String
deriving DecidableEq, Repr

namespace FieldPath

/-- The path of a field of the document itself. The name is taken as it is, dots included. -/
def direct (field : String) : FieldPath := ⟨[], field⟩

/-- The path with the given segments, of which there is at least one. -/
def ofSegments (first : String) (rest : List String) : FieldPath :=
  ⟨(first :: rest).dropLast, (first :: rest).getLast (by simp)⟩

/-- Reads a path with dots between its segments. No segment may be empty but the last of several. -/
def parse (raw : String) : Except RequestError FieldPath :=
  match Text.split '.' raw with
  | [] => .error (.emptyPath raw)
  | first :: rest =>
    if first = "" then .error (.emptyPath raw)
    else if "" ∈ (first :: rest).dropLast then .error (.emptySegment raw)
    else .ok (ofSegments first rest)

/-- All names of a path in order. -/
def segments (p : FieldPath) : List String := p.relations ++ [p.target]

/-- The text of a path. -/
def text (p : FieldPath) : String := Text.joinDots p.segments

/-- Whether the path names a field of the document itself. -/
def isDirect (p : FieldPath) : Bool := p.relations.isEmpty

/-- Whether the path asks for the existence of a target. -/
def isExistence (p : FieldPath) : Bool := !p.relations.isEmpty && p.target == ""

/-- The number of relations that a look-up in another collection answers. The last relation of an
    existence path is answered by the field that holds the reference. -/
def hops (p : FieldPath) : Nat :=
  if p.isExistence then p.relations.length - 1 else p.relations.length

/-- The first relation, and the path from there. -/
def splitFirst? (p : FieldPath) : Option (String × FieldPath) :=
  match p.relations with
  | [] => none
  | relation :: rest => some (relation, ⟨rest, p.target⟩)

end FieldPath

end DocQuery
