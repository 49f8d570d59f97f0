import DocQuery.Proofs.Mongo.Query

namespace DocQuery

namespace Predicate

mutual

/-- Whether all tests in a predicate are as given. -/
def Every (test : String → Operator → Literal → Prop) : Predicate → Prop
  | .all parts | .any parts => EveryOf test parts
  | .test field op value => test field op value

@[inherit_doc Every]
def EveryOf (test : String → Operator → Literal → Prop) : List Predicate → Prop
  | [] => True
  | p :: rest => Every test p ∧ EveryOf test rest

end

end Predicate

namespace Mongo

open Condition (seen isAmong)
open Stored (ofJson)

namespace Filter

variable {fold : Char → Char} {stored : List (String × Bson)}

theorem acceptsAny_eq_any (parts : List Filter) :
    acceptsAny fold stored parts = parts.any (accepts fold stored) := by
  induction parts with
  | nil => rfl
  | cons f rest ih => rw [acceptsAny, List.any_cons, ih]

private theorem accepts_nothing : accepts fold stored nothing = false := by
  simp [nothing, accepts, Condition.holds, isAmong]

/-- Values of which there are none match nothing, with a condition on them as without. -/
theorem accepts_within (key : String) (values : List Bson) :
    accepts fold stored (if values.isEmpty then nothing else .on key (.within values))
      = (seen (Entries.get? key stored)).any (isAmong values) := by
  cases values with
  | nil =>
    change accepts fold stored nothing = _
    rw [accepts_nothing]
    simp [isAmong]
  | cons => rfl

/-- One bound stands for itself, and of several one has to be met. -/
theorem accepts_bounds (key : String) (side : Bound) (values : List Bson) :
    accepts fold stored
      (match values.map fun v => Filter.on key (.bound side v) with
      | [] => nothing
      | [single] => single
      | several => .any several)
      = values.any fun v => (seen (Entries.get? key stored)).any fun s =>
        (s.order? v).any side.admits := by
  match values with
  | [] => exact accepts_nothing
  | [_] => simp [accepts, Condition.holds]
  | first :: second :: rest =>
    simp only [List.map_cons, accepts, acceptsAny_eq_any, Condition.holds,
      List.any_cons, List.any_map]
    rfl

end Filter

private theorem any_singleton {α : Type} (p : α → Bool) (a : α) : [a].any p = p a :=
  Bool.or_false (p a)

/-- Null is none of the values that are written out for literals. -/
theorem candidate_not_null {ordered : Bool} {items : List Literal} {v : Bson}
    (hv : v ∈ items.flatMap (candidates ordered)) : v.isNull = false := by
  obtain ⟨item, -, hitem⟩ := List.mem_flatMap.mp hv
  simpa using (List.mem_filter.mp hitem).2

private theorem order?_null {v : Bson} (hv : v.isNull = false) : Bson.null.order? v = none := by
  cases v with
  | null => cases hv
  | _ => rfl

private theorem sameValue_null {v : Bson} (hv : v.isNull = false) :
    Bson.null.sameValue v = false := by
  cases v with
  | null => cases hv
  | _ => rfl

private theorem isAmong_null {ordered : Bool} (items : List Literal) :
    isAmong (items.flatMap (candidates ordered)) .null = false := by
  refine List.any_eq_false.mpr fun v hv => ?_
  rw [sameValue_null (candidate_not_null hv)]
  decide

/-- A stored scalar is among what is written out for literals exactly if one of them equals its
    value. -/
theorem isAmong_eq {value : Json} {written : Bson} (hvalue : value.IsScalar)
    (hnull : value ≠ .null) (hwritten : ofJson value = .ok written) (items : List Literal) :
    isAmong (items.flatMap (candidates false)) written =
      items.any fun item => item.equals value := by
  rw [isAmong, List.any_flatMap]
  simp only [any_candidates_sameValue hvalue hnull hwritten]

private theorem equalsField_eq {value : Json} (hvalue : value.IsScalar) (literal : Literal) :
    literal.equalsField value = literal.equals value := by
  cases value with
  | arr _ | obj _ => cases hvalue
  | null | bool _ | str _ | num _ => simp [Literal.equalsField]

/-- Whether a test compares a field that holds no instants with literals that are no lists. Only an
    operator on lists has a list of them. -/
structure IsScalarTest (field : String) (op : Operator) (literal : Literal) : Prop where
  plain : Key.IsPlain field
  notInstant : isInstantField field = false
  compares : op ∈ scalarOperators
  items : ∀ item ∈ literal.items, item.IsScalar
  single : op.takesList = false → literal.IsScalar

private theorem items_of_isScalar {literal : Literal} (hliteral : literal.IsScalar) :
    literal.items = [literal] := by
  cases literal with
  | list _ => cases hliteral
  | null | bool _ | num _ | text _ => rfl

section Test

variable {fold : Char → Char} {stored : List (String × Bson)}
  {field : String} {literal : Literal}

/-- Outside of the fields of instants a literal is written out item by item. -/
theorem values_eq (hfield : isInstantField field = false) (ordered : Bool) (literal : Literal) :
    (Filter.values field ordered literal).filter (fun v => !v.isNull)
      = literal.items.flatMap (candidates ordered) := by
  rw [Filter.values, if_neg (by rw [hfield]; decide), List.filter_flatMap]
  rfl

/-- The filter for a test of equality looks for a value that is among those written out. -/
theorem accepts_equality {op : Operator} (hfield : isInstantField field = false)
    (hop : op ∈ [Operator.eq, .isIn, .overlaps]) :
    (Filter.ofTest field op literal).accepts fold stored
      = (seen (Entries.get? (storedField field) stored)).any
          (isAmong (literal.items.flatMap (candidates false))) := by
  rw [← @Filter.accepts_within fold, ← values_eq hfield]
  simp only [List.mem_cons, List.not_mem_nil, or_false] at hop
  rcases hop with rfl | rfl | rfl <;> rfl

/-- The filter for a negative test looks for no value that is among those written out. -/
theorem accepts_inequality {op : Operator} (hfield : isInstantField field = false)
    (hop : op ∈ [Operator.ne, .notIn]) :
    (Filter.ofTest field op literal).accepts fold stored
      = !(seen (Entries.get? (storedField field) stored)).any
          (isAmong (literal.items.flatMap (candidates false))) := by
  rw [← values_eq hfield]
  simp only [List.mem_cons, List.not_mem_nil, or_false] at hop
  rcases hop with rfl | rfl <;> rfl

/-- The filter for a bound asks it of one value and of one item at least. -/
theorem accepts_order {op : Operator} {side : Bound} (hfield : isInstantField field = false)
    (hside : Filter.boundOf? op = some side) :
    (Filter.ofTest field op literal).accepts fold stored
      = (literal.items.flatMap (candidates true)).any fun v =>
          (seen (Entries.get? (storedField field) stored)).any fun s =>
            (s.order? v).any side.admits := by
  rw [← @Filter.accepts_bounds fold, ← values_eq hfield]
  cases op <;> cases hside <;> rfl

/-- The filter for a test of null takes a missing value for null. -/
theorem accepts_existence :
    (Filter.ofTest field .isNull literal).accepts fold stored
      = (literal.asBool ==
        some ((seen (Entries.get? (storedField field) stored)).any Bson.isNull)) := by
  simp only [Filter.ofTest]
  cases literal.asBool with
  | none => exact Filter.accepts_nothing
  | some isNull => cases isNull <;> simp [Filter.accepts, Condition.holds]

/-- Where a field is missing or null, only the negative operators and the test for null hold, on
    both sides. -/
theorem accepts_ofTest_absent {op : Operator} (htest : IsScalarTest field op literal)
    (hseen : seen (Entries.get? (storedField field) stored) = [.null]) :
    (Filter.ofTest field op literal).accepts fold stored = op.holdsOfNull literal := by
  have hnone := @isAmong_null false literal.items
  have horder : ∀ side : Bound, (literal.items.flatMap (candidates true)).any (fun v =>
      [Bson.null].any fun s => (s.order? v).any side.admits) = false := by
    intro side
    refine List.any_eq_false.mpr fun v hv => ?_
    simp [order?_null (candidate_not_null hv)]
  have hcompares := htest.compares
  cases op with
  | eq | isIn | overlaps =>
    rw [accepts_equality htest.notInstant (by decide), hseen]
    simp [hnone, Operator.holdsOfNull]
  | ne | notIn =>
    rw [accepts_inequality htest.notInstant (by decide), hseen]
    simp [hnone, Operator.holdsOfNull]
  | gt | gte | lt | lte =>
    rw [accepts_order htest.notInstant rfl, hseen, horder]
    rfl
  | isNull =>
    rw [accepts_existence, hseen]
    rfl
  | contains | icontains | startsWith | istartsWith | endsWith | iendsWith =>
    exact absurd hcompares (by decide)

private theorem accepts_ofTest_present {op : Operator} {value : Json} {written : Bson}
    (htest : IsScalarTest field op literal) (hvalue : value.IsScalar) (hnull : value ≠ .null)
    (hwritten : ofJson value = .ok written)
    (hseen : seen (Entries.get? (storedField field) stored) = [written]) :
    (Filter.ofTest field op literal).accepts fold stored = op.holdsOf value literal := by
  have hamong := isAmong_eq hvalue hnull hwritten literal.items
  have hcompares := htest.compares
  cases op with
  | eq =>
    rw [accepts_equality htest.notInstant (by decide), hseen, any_singleton, hamong,
      items_of_isScalar (htest.single rfl), any_singleton, ← equalsField_eq hvalue]
    rfl
  | ne =>
    rw [accepts_inequality htest.notInstant (by decide), hseen, any_singleton, hamong,
      items_of_isScalar (htest.single rfl), any_singleton, ← equalsField_eq hvalue]
    rfl
  | isIn | overlaps =>
    rw [accepts_equality htest.notInstant (by decide), hseen]
    simp [hamong, Operator.holdsOf, equalsField_eq hvalue]
  | notIn =>
    rw [accepts_inequality htest.notInstant (by decide), hseen]
    simp [hamong, Operator.holdsOf, equalsField_eq hvalue]
  | gt | gte | lt | lte =>
    rw [accepts_order htest.notInstant rfl, hseen, items_of_isScalar (htest.single rfl),
      List.flatMap_singleton]
    simp only [any_singleton]
    exact any_candidates_order? hvalue hnull hwritten _
  | isNull =>
    rw [accepts_existence, hseen]
    simp [isNull_of_ofJson hnull hvalue hwritten, Operator.holdsOf]
  | contains | icontains | startsWith | istartsWith | endsWith | iendsWith =>
    exact absurd hcompares (by decide)

/-- A test agrees with its filter, where its field is stored. -/
theorem accepts_ofTest {op : Operator} {d : Document} (htest : IsScalarTest field op literal)
    (hstands : Stands (d.field? field) (Entries.get? (storedField field) stored)) :
    (Filter.ofTest field op literal).accepts fold stored = op.holds (d.field? field) literal := by
  rcases hstands.seen_cases with
    ⟨hholds, hseen⟩ | ⟨value, written, hvalue, hnull, hwritten, hholds, hseen⟩
  · rw [hholds, accepts_ofTest_absent htest hseen]
  · rw [hholds, accepts_ofTest_present htest hvalue hnull hwritten hseen]

end Test

section Predicates

variable {fold : Char → Char} {d : Document} {stored : List (String × Bson)}

mutual

/-- By induction over the predicate, the filter for it and the predicate accept alike. -/
theorem accepts_ofPredicate (hd : IsFlat d.data) (hstored : Stored.ofDocument d = .ok stored) :
    (p : Predicate) → p.Every IsScalarTest →
      (Filter.ofPredicate p).accepts fold stored = p.accepts d
  | .all parts, hp => acceptsAll_ofPredicates hd hstored parts hp
  | .any [], _ => Filter.accepts_nothing
  | .any (p :: rest), hp => acceptsAny_ofPredicates hd hstored (p :: rest) hp
  | .test _ _ _, htest =>
    accepts_ofTest htest (stands_of_isFlat hd hstored htest.plain htest.notInstant)

theorem acceptsAll_ofPredicates (hd : IsFlat d.data) (hstored : Stored.ofDocument d = .ok stored) :
    (parts : List Predicate) → Predicate.EveryOf IsScalarTest parts →
      Filter.acceptsAll fold stored (Filter.ofPredicates parts) = Predicate.acceptsAll d parts
  | [], _ => rfl
  | p :: rest, hparts => by
    rw [Filter.ofPredicates, Filter.acceptsAll, Predicate.acceptsAll,
      accepts_ofPredicate hd hstored p hparts.1, acceptsAll_ofPredicates hd hstored rest hparts.2]

theorem acceptsAny_ofPredicates (hd : IsFlat d.data) (hstored : Stored.ofDocument d = .ok stored) :
    (parts : List Predicate) → Predicate.EveryOf IsScalarTest parts →
      Filter.acceptsAny fold stored (Filter.ofPredicates parts) = Predicate.acceptsAny d parts
  | [], _ => rfl
  | p :: rest, hparts => by
    rw [Filter.ofPredicates, Filter.acceptsAny, Predicate.acceptsAny,
      accepts_ofPredicate hd hstored p hparts.1, acceptsAny_ofPredicates hd hstored rest hparts.2]

end

end Predicates

mutual

private theorem compares_ofPredicate :
    (p : Predicate) → p.Every IsScalarTest → (Filter.ofPredicate p).Compares
  | .all parts, hp => compares_ofPredicates parts hp
  | .any [], _ => Filter.compares_nothing
  | .any (p :: rest), hp => compares_ofPredicates (p :: rest) hp
  | .test _ _ _, htest => Filter.compares_ofTest htest.compares

theorem compares_ofPredicates :
    (parts : List Predicate) → Predicate.EveryOf IsScalarTest parts →
    Filter.ComparesEach (Filter.ofPredicates parts)
  | [], _ => trivial
  | p :: rest, hparts => ⟨compares_ofPredicate p hparts.1, compares_ofPredicates rest hparts.2⟩

end

/-- A document with flat data can be stored when its integers can, and then the filter document that
    is sent for a predicate matches what is stored exactly when the predicate accepts the
    document. -/
theorem accepts_document_ofPredicate_eq (p : Predicate) (d : Document) (hp : p.Every IsScalarTest)
    (hd : IsFlat d.data) :
    ((∃ stored, Stored.ofDocument d = .ok stored) ↔ (Json.obj d.data).FitsInt64) ∧
      ∀ stored, Stored.ofDocument d = .ok stored →
        Query.accepts stored (Filter.document (Filter.ofPredicate p)) = p.accepts d := by
  refine ⟨Stored.exists_ofDocument_iff, fun stored hstored => ?_⟩
  rw [Query.accepts_document _ (compares_ofPredicate p hp)]
  exact accepts_ofPredicate hd hstored p hp

/-- A document with a value of each kind. -/
def flat : Document where
  id := "p1"
  collection := "posts"
  data := [("views", .num (.int 7 (by decide))), ("done", .bool true), ("title", .str "7"),
    ("editor", .null)]
  created := Instant.epoch
  updated := Instant.epoch

/-- A predicate that reads literals of one type for values of another. -/
def coercing : Predicate :=
  .all [.any [.any [], .test "views" .gt (.text "6.5")], .test "done" .eq (.text "TRUE"),
    .test "title" .isIn (.list [.null, .num (Double.ofInt 7)]), .test "editor" .ne (.bool true),
    .test "id" .notIn (.text "p2"), .test "missing" .isNull (.text "true")]

/-- What is sent for literals of other types than the data finds the document as well. -/
theorem accepts_document_coercing :
    coercing.Every IsScalarTest ∧ IsFlat flat.data ∧
      ∃ stored, Stored.ofDocument flat = .ok stored ∧
        Query.accepts stored (Filter.document (Filter.ofPredicate coercing)) = true := by
  have hplain : ∀ name ∈ ["views", "done", "title", "editor", "id", "missing"],
      Key.IsPlain name := by decide
  have hfinite : (Double.ofInt 7).isFinite = true := by decide +kernel
  have hcoercing : coercing.Every IsScalarTest := by
    refine ⟨⟨trivial,
      ⟨hplain _ (by decide), rfl, by decide, ?_, fun _ => trivial⟩, trivial⟩,
      ⟨hplain _ (by decide), rfl, by decide, ?_, fun _ => trivial⟩,
      ⟨hplain _ (by decide), rfl, by decide, ?_, fun hscalar => nomatch hscalar⟩,
      ⟨hplain _ (by decide), rfl, by decide, ?_, fun _ => trivial⟩,
      ⟨hplain _ (by decide), rfl, by decide, ?_, fun hscalar => nomatch hscalar⟩,
      ⟨hplain _ (by decide), rfl, by decide, ?_, fun _ => trivial⟩, trivial⟩
    all_goals simp [Literal.items, Literal.IsScalar, hfinite]
  have hflat : IsFlat flat.data := by
    have hseven : (Number.int 7 (by decide)).IsExact := ⟨Double.ofInt 7, by decide +kernel⟩
    refine ⟨by decide,
      fun name hname => hplain name (List.mem_append_left ["id", "missing"] hname), ?_⟩
    simpa [flat, Json.IsScalar] using hseven
  obtain ⟨hstorable, hagree⟩ := accepts_document_ofPredicate_eq coercing flat hcoercing hflat
  obtain ⟨stored, hstored⟩ := hstorable.mpr (by decide)
  exact ⟨hcoercing, hflat, stored, hstored, (hagree stored hstored).trans (by decide +kernel)⟩

end Mongo

end DocQuery
