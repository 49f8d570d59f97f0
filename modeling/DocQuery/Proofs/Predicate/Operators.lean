import DocQuery.Proofs.Number.Worth
import DocQuery.Store.Evaluation

namespace DocQuery

namespace Literal

theorem equals_text_str (t s : String) : (text t).equals (.str s) = (t == s) := rfl

/-- A stored value that is neither above nor below a literal equals it. The readings that give an
    order are all among those that equality tries. -/
theorem equals_of_order?_eq {literal : Literal} {stored : Json}
    (horder : literal.order? stored = some .eq) :
    literal.equals stored = true := by
  cases stored with
  | null | arr _ | obj _ => cases horder
  | bool b =>
    rw [order?, Option.map_eq_some_iff] at horder
    obtain ⟨c, hread, hcompare⟩ := horder
    obtain rfl : b = c := Std.LawfulEqOrd.eq_of_compare hcompare
    cases literal with
    | null | num _ | list _ => cases hread
    | bool _ | text _ => exact beq_iff_eq.mpr hread
  | num n =>
    rw [order?, Option.bind_eq_some_iff] at horder
    obtain ⟨d, hread, hcompare⟩ := horder
    have hsame : d.sameValue n.toDouble = true := by
      rw [← Double.compare?_beq_eq, hcompare]
      rfl
    cases literal with
    | null | bool _ | list _ => cases hread
    | num _ | text _ =>
      rw [equals, hread]
      · exact hsame
      all_goals exact nofun
  | str s =>
    cases literal with
    | null | bool _ | num _ | list _ => cases horder
    | text t =>
      obtain rfl : s = t := Std.LawfulEqOrd.eq_of_compare (Option.some.inj horder)
      rw [equals_text_str]
      exact beq_self_eq_true s

end Literal

namespace Operator

/-- Being in a list is being equal to one of its items. Nothing is in a list where null is stored,
    as no item of a filter equals that. -/
theorem holds_isIn_eq_any (stored : Option Json) (value : Literal) :
    isIn.holds stored value = value.items.any (eq.holds stored) := by
  have hnever : value.items.any (fun _ => false) = false := by simp
  match stored with
  | none | some .null => exact hnever.symm
  | some (.bool _) | some (.num _) | some (.str _) | some (.arr _) | some (.obj _) => rfl

@[inherit_doc holds_isIn_eq_any]
theorem holds_overlaps_eq_any (stored : Option Json) (value : Literal) :
    overlaps.holds stored value = value.items.any (eq.holds stored) := by
  rw [← holds_isIn_eq_any]
  match stored with
  | none | some .null => rfl
  | some (.bool _) | some (.num _) | some (.str _) | some (.arr _) | some (.obj _) => rfl

/-- The negative of `eq` denies it, of null and of nothing at all as well. -/
theorem holds_ne (stored : Option Json) (value : Literal) :
    ne.holds stored value = !eq.holds stored value := by
  match stored with
  | none | some .null => rfl
  | some (.bool _) | some (.num _) | some (.str _) | some (.arr _) | some (.obj _) => rfl

/-- The negative of `in` denies it, of null and of nothing at all as well. -/
theorem holds_notIn (stored : Option Json) (value : Literal) :
    notIn.holds stored value = !isIn.holds stored value := by
  match stored with
  | none | some .null => rfl
  | some (.bool _) | some (.num _) | some (.str _) | some (.arr _) | some (.obj _) => rfl

/-- The operators that compare by order. -/
def bounds : List Operator := [gt, gte, lt, lte]

/-- A bound looks at the order of the stored value and the literal alone, and null has none. -/
theorem holds_bound {op : Operator} (hop : op ∈ bounds) (stored : Option Json) (value : Literal) :
    op.holds stored value = (stored.bind value.order?).any op.boundHolds := by
  simp only [bounds, List.mem_cons, List.not_mem_nil, or_false] at hop
  rcases hop with rfl | rfl | rfl | rfl <;> match stored with
  | none | some .null => rfl
  | some (.bool _) | some (.num _) | some (.str _) | some (.arr _) | some (.obj _) => rfl

/-- The tests for null with opposite literals deny each other. -/
theorem holds_isNull_of_asBool {yes no : Literal} (hyes : yes.asBool = some true)
    (hno : no.asBool = some false) (stored : Option Json) :
    isNull.holds stored yes = !isNull.holds stored no := by
  match stored with
  | none | some .null => simp [holds, holdsOfNull, hyes, hno]
  | some (.bool _) | some (.num _) | some (.str _) | some (.arr _) | some (.obj _) =>
    simp [holds, holdsOf, hyes, hno]

/-- A stored value between equal bounds equals them. -/
theorem holds_eq_of_bounds {stored : Option Json} {value : Literal}
    (hgte : gte.holds stored value = true) (hlte : lte.holds stored value = true) :
    eq.holds stored value = true := by
  rw [holds_bound (by decide), Option.any_eq_true] at hgte hlte
  obtain ⟨ordering, horder, hge⟩ := hgte
  obtain ⟨_, horder', hle⟩ := hlte
  obtain rfl := Option.some.inj (horder.symm.trans horder')
  obtain rfl : ordering = .eq := by
    cases ordering with
    | lt => exact absurd hge (by decide)
    | eq => rfl
    | gt => exact absurd hle (by decide)
  obtain ⟨value', rfl, horder⟩ := Option.bind_eq_some_iff.mp horder
  have hequals := Literal.equals_of_order?_eq horder
  cases value' with
  | null => cases horder
  | bool _ | num _ | str _ | arr _ | obj _ => exact Bool.or_eq_true_iff.mpr (.inl hequals)

/-- Where null is stored or nothing at all, only denials and the test for null hold. -/
theorem holds_of_null {stored : Option Json} (hstored : stored = none ∨ stored = some .null)
    (op : Operator) (value : Literal) :
    op.holds stored value = true ↔ op = ne ∨ op = notIn ∨ op = isNull ∧
      value.asBool = some true := by
  have hnull : op.holds stored value = op.holdsOfNull value := by
    rcases hstored with rfl | rfl <;> rfl
  rw [hnull]
  cases op <;> simp [holdsOfNull]

end Operator

namespace Predicate

/-- The tests of one field read in terms of each other. Denials are the opposite of what they deny;
    lists are read item by item; exactly one of the two tests for null holds; the bounds are those
    of one order, in which what is at both bounds equals the literal; and of a field that is null or
    missing only denials and the test for null hold. -/
theorem accepts_test_laws (d : Document) (field : String) (value : Literal) :
    (accepts d (.test field .ne value) = !accepts d (.test field .eq value)) ∧
    (accepts d (.test field .notIn value) = !accepts d (.test field .isIn value)) ∧
    (∀ op ∈ [Operator.isIn, .overlaps], accepts d (.test field op value) = true ↔
      ∃ item ∈ value.items, accepts d (.test field .eq item) = true) ∧
    (∀ yes no : Literal, yes.asBool = some true → no.asBool = some false →
      accepts d (.test field .isNull yes) = !accepts d (.test field .isNull no)) ∧
    ¬ (accepts d (.test field .gt value) = true ∧ accepts d (.test field .lt value) = true) ∧
    (accepts d (.test field .gte value) = true ↔ accepts d (.test field .gt value) = true ∨
      accepts d (.test field .gte value) = true ∧ accepts d (.test field .lte value) = true) ∧
    (accepts d (.test field .lte value) = true ↔ accepts d (.test field .lt value) = true ∨
      accepts d (.test field .gte value) = true ∧ accepts d (.test field .lte value) = true) ∧
    (accepts d (.test field .gte value) = true → accepts d (.test field .lte value) = true →
      accepts d (.test field .eq value) = true) ∧
    (d.field? field = none ∨ d.field? field = some .null → ∀ op,
      accepts d (.test field op value) = true ↔
      op = .ne ∨ op = .notIn ∨ op = .isNull ∧ value.asBool = some true) := by
  simp only [accepts]
  generalize d.field? field = stored
  have hbound : ∀ op ∈ Operator.bounds, op.holds stored value =
      (stored.bind value.order?).any op.boundHolds :=
        fun _ hop => Operator.holds_bound hop stored value
  refine ⟨Operator.holds_ne stored value, Operator.holds_notIn stored value, fun op hop => ?_,
    fun yes no hyes hno => Operator.holds_isNull_of_asBool hyes hno stored, ?_, ?_, ?_,
    Operator.holds_eq_of_bounds, fun hstored op => Operator.holds_of_null hstored op value⟩
  · rw [← List.any_eq_true]
    simp only [List.mem_cons, List.not_mem_nil, or_false] at hop
    rcases hop with rfl | rfl
    · rw [Operator.holds_isIn_eq_any]
    · rw [Operator.holds_overlaps_eq_any]
  all_goals
    simp (disch := decide) only [hbound]
    cases stored.bind value.order? with
    | none => simp
    | some ordering => cases ordering <;> simp [Operator.boundHolds]

/-- A post that was read 120 times, and is not deleted. -/
def counted : Document :=
  ⟨"p1", "posts", [("views", .num (.int 120 (by decide))), ("deleted_at", .null)],
    .epoch, .epoch⟩

/-- The number is at both bounds of the text `120.0` and equals it; and of the two tests whether the
    post is deleted, that with the word for yes holds. -/
theorem accepts_test_laws_counted :
    accepts counted (.test "views" .gte (.text "120.0")) = true ∧
    accepts counted (.test "views" .lte (.text "120.0")) = true ∧
    accepts counted (.test "views" .eq (.text "120.0")) = true ∧
    counted.field? "deleted_at" = some .null ∧
    accepts counted (.test "deleted_at" .isNull (.text "True")) = true ∧
    accepts counted (.test "deleted_at" .isNull (.bool false)) = false := by
  have hgte : accepts counted (.test "views" .gte (.text "120.0")) = true := by decide +kernel
  have hlte : accepts counted (.test "views" .lte (.text "120.0")) = true := by decide +kernel
  obtain ⟨-, -, -, -, -, -, -, heq, -⟩ := accepts_test_laws counted "views" (.text "120.0")
  obtain ⟨-, -, -, hisNull, -, -, -, -, hnull⟩ :=
    accepts_test_laws counted "deleted_at" (.text "True")
  have hyes := (hnull (.inr rfl) .isNull).mpr (.inr (.inr ⟨rfl, by decide +kernel⟩))
  have hno := hisNull (.text "True") (.bool false) (by decide +kernel) rfl
  rw [hyes] at hno
  exact ⟨hgte, hlte, heq hgte hlte, rfl, hyes, by simpa using hno⟩

end Predicate

end DocQuery
