import DocQuery.Literal
import DocQuery.Operator

namespace DocQuery

/-- A condition on the fields of a document, with no relation left to resolve. An empty conjunction
    holds everywhere, and an empty disjunction nowhere. -/
inductive Predicate where
  | all (parts : List Predicate)
  | any (parts : List Predicate)
  | test (field : String) (op : Operator) (value : Literal)
deriving Inhabited

namespace Predicate

/-- The conjunction of two predicates. A conjunction on the left takes the right one in as its last
    part. -/
def and : Predicate → Predicate → Predicate
  | .all parts, other => .all (parts ++ [other])
  | p, other => .all [p, other]

/-- The disjunction of two predicates. A disjunction on the left takes the right one in as its last
    part. -/
def or : Predicate → Predicate → Predicate
  | .any parts, other => .any (parts ++ [other])
  | p, other => .any [p, other]

mutual

/-- Puts the part of every conjunction or disjunction that has only one in its place. -/
def simplify : Predicate → Predicate
  | .all [p] => simplify p
  | .any [p] => simplify p
  | .all parts => .all (simplifyEach parts)
  | .any parts => .any (simplifyEach parts)
  | .test field op value => .test field op value

/-- Simplifies every predicate of a list. -/
def simplifyEach : List Predicate → List Predicate
  | [] => []
  | p :: rest => simplify p :: simplifyEach rest

end

end Predicate

end DocQuery
