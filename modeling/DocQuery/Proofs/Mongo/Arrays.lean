import DocQuery.Proofs.Mongo.Agreement

namespace DocQuery

namespace Operator

/-- Whether an operator on whole values holds of an array element by element: with one of its items
    the literal meets an element, or, if the operator is negative, none of them does. -/
def holdsOfElements (op : Operator) (elements : List Json) (literal : Literal) : Bool :=
  let equal := elements.any fun value => literal.items.any fun item => item.equals value
  match op with
  | .eq | .isIn | .overlaps => equal
  | .ne | .notIn => !equal
  | .gt | .gte | .lt | .lte => elements.any fun value => literal.items.any fun item =>
      (item.order? value).any op.boundHolds
  | .isNull => literal.asBool == some false
  | _ => false

/-- Whether an operator on whole values says one thing of an array and another of its elements: a
    list equals the array but none of its members an element, or the other way round; an item that
    is a list equals the array where no item equals an element; or an element is within a bound. -/
def SplitsArray (op : Operator) (elements : List Json) (literal : Literal) : Prop :=
  match op with
  | .eq | .ne => ∃ members, literal = .list members ∧
      ¬ ((Literal.list members).equals (.arr elements) = true ↔
        ∃ value ∈ elements, ∃ member ∈ members, member.equals value = true)
  | .isIn | .notIn | .overlaps =>
    (∃ item ∈ literal.items, item.equals (.arr elements) = true) ∧
      ∀ value ∈ elements, ∀ item ∈ literal.items, ¬ item.equals value = true
  | .gt | .gte | .lt | .lte => ∃ value ∈ elements, ∃ item ∈ literal.items,
      (item.order? value).any op.boundHolds = true
  | _ => False

variable {elements : List Json} {literal : Literal}

private theorem any_equals_iff :
    (elements.any fun value => literal.items.any fun item => item.equals value) = true ↔
    ∃ value ∈ elements, ∃ item ∈ literal.items, item.equals value = true := by
  simp only [List.any_eq_true]

private theorem equals_list_of_isScalar {value : Json} (hvalue : value.IsScalar)
    (members : List Literal) :
    (Literal.list members).equals value = false := by
  cases value with
  | arr _ | obj _ => cases hvalue
  | null | bool _ | num _ | str _ => rfl

/-- No element is a list, so a list that the field is to equal has to equal the array as a whole. -/
theorem any_equals_eq_equalsField_iff (hscalar : ∀ value ∈ elements, value.IsScalar) :
    (elements.any fun value => literal.items.any fun item => item.equals value) =
        literal.equalsField (.arr elements) ↔ ¬ eq.SplitsArray elements literal := by
  cases literal with
  | list members =>
    have hnone : elements.any (Literal.list members).equals = false :=
      List.any_eq_false.mpr fun value hvalue => by
        rw [equals_list_of_isScalar (hscalar value hvalue)]
        decide
    have hwhole : (Literal.list members).equalsField (.arr elements) =
        (Literal.list members).equals (.arr elements) := by
      rw [Literal.equalsField]
      simp only [hnone, Bool.or_false]
    rw [hwhole, Bool.eq_iff_iff, any_equals_iff]
    constructor
    · rintro hsame ⟨_, heq, hsplits⟩
      cases heq
      exact hsplits hsame.symm
    · exact fun hsame => Decidable.not_not.mp fun hsplits =>
        hsame ⟨members, rfl, fun h => hsplits h.symm⟩
  | null | bool _ | num _ | text _ =>
    refine iff_of_true ?_ ?_
    · simp only [Literal.items, List.any_cons, List.any_nil, Bool.or_false]
      rfl
    · rintro ⟨_, heq, -⟩
      cases heq

private theorem any_equals_eq_any_equalsField_iff :
    (elements.any fun value => literal.items.any fun item => item.equals value) =
        (literal.items.any fun item => item.equalsField (.arr elements)) ↔
      ¬ isIn.SplitsArray elements literal := by
  rw [Bool.eq_iff_iff, any_equals_iff]
  simp only [Literal.equalsField, List.any_eq_true, Bool.or_eq_true]
  constructor
  · rintro hsame ⟨⟨item, hitem, hwhole⟩, hnone⟩
    obtain ⟨value, hvalue, other, hother, hequals⟩ := hsame.mpr ⟨item, hitem, .inl hwhole⟩
    exact hnone value hvalue other hother hequals
  · intro hsplits
    constructor
    · rintro ⟨value, hvalue, item, hitem, hequals⟩
      exact ⟨item, hitem, .inr ⟨value, hvalue, hequals⟩⟩
    · rintro ⟨item, hitem, hwhole | ⟨value, hvalue, hequals⟩⟩
      · refine Classical.byContradiction fun hnone => hsplits ⟨⟨item, hitem, hwhole⟩, ?_⟩
        exact fun value hvalue other hother hequals =>
          hnone ⟨value, hvalue, other, hother, hequals⟩
      · exact ⟨value, hvalue, item, hitem, hequals⟩

private theorem any_order?_eq_false_iff (meets : Ordering → Bool) :
    (elements.any fun value => literal.items.any fun item =>
      (item.order? value).any meets) = false ↔
      ¬ ∃ value ∈ elements, ∃ item ∈ literal.items,
        (item.order? value).any meets = true := by
  rw [← Bool.not_eq_true]
  simp only [List.any_eq_true]

/-- An operator on whole values says of an array what it says of its elements, unless it splits the
    array. -/
theorem holdsOfElements_eq_holdsOf_iff {op : Operator} (hop : op ∈ Mongo.scalarOperators)
    (hscalar : ∀ value ∈ elements, value.IsScalar) :
    op.holdsOfElements elements literal = op.holdsOf (.arr elements) literal ↔
      ¬ op.SplitsArray elements literal := by
  cases op with
  | eq => exact any_equals_eq_equalsField_iff hscalar
  | ne => exact Bool.not_inj_iff.trans (any_equals_eq_equalsField_iff hscalar)
  | isIn | overlaps => exact any_equals_eq_any_equalsField_iff
  | notIn => exact Bool.not_inj_iff.trans any_equals_eq_any_equalsField_iff
  | gt | gte | lt | lte => exact any_order?_eq_false_iff _
  | isNull => exact iff_of_true rfl id
  | contains | icontains | startsWith | istartsWith | endsWith | iendsWith =>
    exact absurd hop (by decide)

end Operator

namespace Mongo

open Condition (seen isAmong)
open Stored (ofJson)

/-- Whether stored values are what is stored for values, each of which is a scalar and none of them
    null. -/
def StandEach (elements : List Json) (written : List Bson) : Prop :=
  List.Forall₂ (fun value stored => (value.IsScalar ∧ value ≠ .null) ∧
    ofJson value = .ok stored) elements written

section Elements

variable {elements : List Json} {written : List Bson}

/-- What holds alike of each value and of what is stored for it holds alike of some of them. -/
theorem StandEach.any_eq {p : Bson → Bool} {q : Json → Bool}
    (hstand : StandEach elements written)
    (heach : ∀ value stored, value.IsScalar → value ≠ .null → ofJson value = .ok stored →
      p stored = q value) :
    written.any p = elements.any q := by
  induction hstand with
  | nil => rfl
  | cons hvalue _ ih =>
    rw [List.any_cons, List.any_cons, ih, heach _ _ hvalue.1.1 hvalue.1.2 hvalue.2]

/-- Scalars have no names in them to be escaped. -/
theorem StandEach.escapeValue_eq (hstand : StandEach elements written) :
    Key.escapeValue (.arr written) = .arr written := by
  have hitems : Key.mapNamesItems Key.escape written = written := by
    induction hstand with
    | nil => rfl
    | cons hvalue _ ih =>
      rw [Key.mapNamesItems, ih, mapNames_of_isScalar (isScalar_of_ofJson hvalue.1.1 hvalue.2)]
  exact congrArg Bson.arr hitems

private theorem isScalar_of_mem_candidates {ordered : Bool} {items : List Literal} {v : Bson}
    (hv : v ∈ items.flatMap (candidates ordered)) : v.IsScalar := by
  obtain ⟨item, -, hitem⟩ := List.mem_flatMap.mp hv
  exact Filter.isScalar_of_isLeaf (Filter.isLeaf_of_mem_valuesOfItem (List.mem_filter.mp hitem).1)

/-- An array as a whole is none of the values that are written out for literals. -/
theorem isAmong_arr {ordered : Bool} (items : List Literal) :
    isAmong (items.flatMap (candidates ordered)) (.arr written) = false := by
  refine List.any_eq_false.mpr fun v hv => ?_
  have hscalar := isScalar_of_mem_candidates hv
  cases v with
  | arr _ | doc _ => cases hscalar
  | _ => exact Bool.false_ne_true

private theorem any_seen_arr_isAmong (hstand : StandEach elements written) (items : List Literal) :
    (seen (some (.arr written))).any (isAmong (items.flatMap (candidates false))) =
      elements.any fun value => items.any fun item => item.equals value := by
  rw [seen, List.any_cons, isAmong_arr, Bool.false_or]
  exact hstand.any_eq fun value stored hvalue hnull hstored => isAmong_eq hvalue hnull hstored items

private theorem order?_arr {v : Bson} (hv : v.IsScalar) : (Bson.arr written).order? v = none := by
  cases v with
  | arr _ | doc _ => cases hv
  | _ => rfl

/-- An array as a whole has no order with a scalar, so that a bound looks at its elements. -/
theorem any_bounds_arr (hstand : StandEach elements written) (items : List Literal)
    (meets : Ordering → Bool) :
    ((items.flatMap (candidates true)).any fun v =>
        (seen (some (.arr written))).any fun s => (s.order? v).any meets) =
      elements.any fun value => items.any fun item => (item.order? value).any meets := by
  have heach : (items.flatMap (candidates true)).any (fun v =>
        (seen (some (.arr written))).any fun s => (s.order? v).any meets) =
      written.any fun s => (items.flatMap (candidates true)).any fun v =>
        (s.order? v).any meets := by
    rw [Bool.eq_iff_iff, List.any_eq_true, List.any_eq_true]
    constructor
    · rintro ⟨v, hv, hseen⟩
      rw [seen, List.any_cons, order?_arr (isScalar_of_mem_candidates hv), Option.any_none,
        Bool.false_or] at hseen
      obtain ⟨s, hs, hmeets⟩ := List.any_eq_true.mp hseen
      exact ⟨s, hs, List.any_eq_true.mpr ⟨v, hv, hmeets⟩⟩
    · rintro ⟨s, hs, hvalues⟩
      obtain ⟨v, hv, hmeets⟩ := List.any_eq_true.mp hvalues
      exact ⟨v, hv, List.any_eq_true.mpr ⟨s, List.mem_cons_of_mem _ hs, hmeets⟩⟩
  rw [heach]
  refine hstand.any_eq fun value stored hvalue hnull hstored => ?_
  rw [List.any_flatMap]
  simp only [any_candidates_order? hvalue hnull hstored]

variable {fold : Char → Char} {stored : List (String × Bson)}
  {field : String} {literal : Literal}

/-- The filter for a test is met by an array element by element. -/
theorem accepts_ofTest_arr {op : Operator} (hop : op ∈ scalarOperators)
    (hinstant : isInstantField field = false) (hstand : StandEach elements written)
    (hget : Entries.get? (storedField field) stored = some (.arr written)) :
    (Filter.ofTest field op literal).accepts fold stored = op.holdsOfElements elements literal := by
  have hamong := any_seen_arr_isAmong hstand literal.items
  cases op with
  | eq | isIn | overlaps =>
    rw [accepts_equality hinstant (by decide), hget, hamong]
    rfl
  | ne | notIn =>
    rw [accepts_inequality hinstant (by decide), hget, hamong]
    rfl
  | gt | gte | lt | lte =>
    rw [accepts_order hinstant rfl, hget]
    exact any_bounds_arr hstand literal.items _
  | isNull =>
    have hnull : written.any Bson.isNull = false := by
      rw [hstand.any_eq (q := fun _ => false) fun _ _ hvalue hpresent hstored =>
        isNull_of_ofJson hpresent hvalue hstored]
      simp
    rw [accepts_existence, hget, seen, List.any_cons, hnull]
    rfl
  | contains | icontains | startsWith | istartsWith | endsWith | iendsWith =>
    exact absurd hop (by decide)

end Elements

/-- A field that holds an array is one of the data, and no field of instants. -/
theorem get?_of_field?_arr {d : Document} {field : String} {elements : List Json}
    (hfield : d.field? field = some (.arr elements)) :
    Entries.get? field d.data = some (.arr elements) ∧ isInstantField field = false ∧
      storedField field = Key.escape field := by
  unfold Document.field? at hfield
  split at hfield
  · cases hfield
  · next hid =>
    split at hfield
    · cases hfield
    · next hcreated =>
      split at hfield
      · cases hfield
      · next hupdated =>
        refine ⟨hfield, by simp [isInstantField, hcreated, hupdated], ?_⟩
        rw [storedField, if_neg hid, if_neg hcreated, if_neg hupdated]

/-- An array of scalars is stored element by element under the name of its field. -/
theorem exists_standEach {d : Document} {stored : List (String × Bson)}
    (hdistinct : (Entries.names d.data).Nodup)
    (hplain : ∀ name ∈ Entries.names d.data, Key.IsPlain name)
    (hstored : Stored.ofDocument d = .ok stored) {field : String} {elements : List Json}
    (hfield : d.field? field = some (.arr elements))
    (helements : ∀ value ∈ elements, value.IsScalar ∧ value ≠ .null) :
    ∃ written, StandEach elements written ∧ Entries.get? (storedField field) stored =
      some (.arr written) := by
  obtain ⟨hget, -, hname⟩ := get?_of_field?_arr hfield
  have hfieldPlain := hplain field (List.mem_map_of_mem (Entries.mem_of_get? hget))
  obtain ⟨unescaped, harr, hvalue⟩ :=
    exists_get?_of_ofDocument hdistinct hstored hfieldPlain (Key.eq_of_escape_eq hplain) hget
  obtain ⟨written, hitems, rfl⟩ := map_eq_ok_iff.mp harr
  have hstand : StandEach elements written :=
    (List.forall₂_and_left elements written).mpr
      ⟨helements, Stored.forall₂_of_ofJsonItems hitems⟩
  refine ⟨written, hstand, ?_⟩
  rw [hname, hfieldPlain.escape_eq, hvalue, hstand.escapeValue_eq]

/-- A document with an array of scalars in a field, and whatever else in others, is found by the
    filter for a test on the field when the test holds of the elements. That is when the test itself
    holds, exactly unless the operator says one thing of the array and another of its elements. -/
theorem accepts_document_ofTest_arr_eq_iff {d : Document} (hdistinct : (Entries.names d.data).Nodup)
    (hplain : ∀ name ∈ Entries.names d.data, Key.IsPlain name) {field : String}
    {elements : List Json} (hfield : d.field? field = some (.arr elements))
    (helements : ∀ value ∈ elements, value.IsScalar ∧ value ≠ .null) {op : Operator}
    (hop : op ∈ scalarOperators) (literal : Literal) :
    ((∃ stored, Stored.ofDocument d = .ok stored) ↔ (Json.obj d.data).FitsInt64) ∧
      ∀ stored, Stored.ofDocument d = .ok stored →
        Query.accepts stored (Filter.document (Filter.ofPredicate (.test field op literal))) =
            op.holdsOfElements elements literal ∧
          (Query.accepts stored (Filter.document (Filter.ofPredicate (.test field op literal))) =
            (Predicate.test field op literal).accepts d ↔
              ¬ op.SplitsArray elements literal) := by
  refine ⟨Stored.exists_ofDocument_iff, fun stored hstored => ?_⟩
  obtain ⟨written, hstand, hget⟩ := exists_standEach hdistinct hplain hstored hfield helements
  have hinstant := (get?_of_field?_arr hfield).2.1
  have haccepts : Query.accepts stored
      (Filter.document (Filter.ofPredicate (.test field op literal))) =
      op.holdsOfElements elements literal := by
    rw [Filter.ofPredicate, Query.accepts_document _ (Filter.compares_ofTest hop)]
    exact accepts_ofTest_arr hop hinstant hstand hget
  refine ⟨haccepts, ?_⟩
  rw [haccepts, Predicate.accepts, hfield]
  exact Operator.holdsOfElements_eq_holdsOf_iff hop fun value hvalue => (helements value hvalue).1

/-- A document with an array of texts and an array of numbers. -/
def listing : Document where
  id := "p1"
  collection := "posts"
  data := [("tags", .arr [.str "a", .str "7"]), ("scores", .arr [.num (.int 5 (by decide))])]
  created := Instant.epoch
  updated := Instant.epoch

/-- One of the tags is the text of a number in the list. -/
theorem accepts_document_tags_isIn :
    ∃ stored, Stored.ofDocument listing = .ok stored ∧
      Query.accepts stored (Filter.document (Filter.ofPredicate
        (.test "tags" .isIn (.list [.num (Double.ofInt 7), .text "b"])))) = true := by
  have hfield : listing.field? "tags" = some (.arr [.str "a", .str "7"]) := rfl
  have helements : ∀ value ∈ [Json.str "a", .str "7"], value.IsScalar ∧ value ≠ .null := by
    simp [Json.IsScalar]
  have hplain : ∀ name ∈ Entries.names listing.data, Key.IsPlain name := by decide
  have hop : Operator.isIn ∈ scalarOperators := by decide
  obtain ⟨hstorable, hagree⟩ :=
    accepts_document_ofTest_arr_eq_iff (by decide) hplain hfield helements hop
    (.list [.num (Double.ofInt 7), .text "b"])
  obtain ⟨stored, hstored⟩ := hstorable.mpr (by decide)
  exact ⟨stored, hstored, (hagree stored hstored).1.trans (by decide +kernel)⟩

/-- A list that only shares a member with the tags is not equal to them, and an array of scores is
    not above a bound; but the filters that are sent for these tests find the document. -/
theorem accepts_document_listing_ne :
    (∀ name ∈ Entries.names listing.data, Key.IsPlain name) ∧
      (∀ entry ∈ listing.data, ∃ elements, entry.2 = .arr elements ∧
        ∀ value ∈ elements, value.IsScalar ∧ value ≠ .null) ∧
      ∃ stored, Stored.ofDocument listing = .ok stored ∧
        (Predicate.test "tags" .eq (.list [.text "a", .text "b"])).accepts listing = false ∧
        Query.accepts stored (Filter.document (Filter.ofPredicate
          (.test "tags" .eq (.list [.text "a", .text "b"])))) = true ∧
        (Predicate.test "scores" .gt (.num (Double.ofInt 3))).accepts listing = false ∧
        Query.accepts stored (Filter.document (Filter.ofPredicate
          (.test "scores" .gt (.num (Double.ofInt 3))))) = true := by
  have hfive : (Number.int 5 (by decide)).IsExact := ⟨Double.ofInt 5, by decide +kernel⟩
  refine ⟨by decide, List.forall_mem_cons.mpr ⟨⟨_, rfl, ?_⟩,
    List.forall_mem_singleton.mpr ⟨_, rfl, ?_⟩⟩, _, rfl, ?_⟩
  · simp [Json.IsScalar]
  · simpa [Json.IsScalar] using hfive
  · exact ⟨by decide +kernel, by decide +kernel, by decide +kernel, by decide +kernel⟩

end Mongo

end DocQuery
