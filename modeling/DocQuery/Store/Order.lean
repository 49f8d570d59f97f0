import DocQuery.Document.Basic
import DocQuery.Scan

namespace DocQuery

namespace Json

/-- The place of a value's type among the types. -/
def rank : Json → Nat
  | .null => 0
  | .bool _ => 1
  | .num _ => 2
  | .str _ => 3
  | .arr _ => 4
  | .obj _ => 5

mutual

/-- The order of two values: by their types, and then by what they hold. All objects are alike. -/
def order : Json → Json → Ordering
  | .bool a, .bool b => compare a b
  | .num a, .num b => a.toDouble.totalCompare b.toDouble
  | .str a, .str b => compare a b
  | .arr as, .arr bs => orderItems as bs
  | a, b => compare a.rank b.rank

/-- The order of two arrays. A beginning of an array comes before it. -/
def orderItems : List Json → List Json → Ordering
  | [], [] => .eq
  | [], _ :: _ => .lt
  | _ :: _, [] => .gt
  | a :: as, b :: bs => (order a b).then (orderItems as bs)

end

end Json

namespace SortKey

/-- The order of two documents by one key. A missing field stands with null. -/
def order (key : SortKey) (a b : Document) : Ordering :=
  let left := (a.field? key.field).getD .null
  let right := (b.field? key.field).getD .null
  match key.direction with
  | .ascending => left.order right
  | .descending => right.order left

end SortKey

namespace Document

/-- The order of two documents by several keys, the first key that tells them apart deciding. -/
def order (keys : List SortKey) (a b : Document) : Ordering :=
  match keys with
  | [] => .eq
  | key :: rest => (key.order a b).then (order rest a b)

end Document

end DocQuery
