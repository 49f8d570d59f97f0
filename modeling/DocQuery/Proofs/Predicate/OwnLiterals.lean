import DocQuery.Json.Throughout
import DocQuery.Proofs.Number.Format
import DocQuery.Proofs.Predicate.Operators

namespace DocQuery

/-- Whether there is no object in a value, at any depth. -/
def Json.IsObjectFree (value : Json) : Prop := value.Throughout (fun _ => False) fun _ => True

instance (value : Json) : Decidable value.IsObjectFree :=
  inferInstanceAs (Decidable (value.Throughout (fun _ => False) fun _ => True))

namespace Literal

/-- A number is stored as what its literal holds, and no stored number is a NaN. -/
theorem equals_num_toDouble (n : Number) : (num n.toDouble).equals (.num n) = true :=
  Double.sameValue_self (Double.isNaN_of_isFinite n.isFinite_toDouble)

mutual

/-- A value equals its literal as a whole, unless there is an object in it: the literal of an object
    is a text, and no text equals an object. -/
theorem equals_ofJson_iff :
    ∀ value : Json, (ofJson value).equals value = true ↔ value.IsObjectFree
  | .null => iff_of_true rfl trivial
  | .bool b => iff_of_true (beq_self_eq_true (some b)) trivial
  | .num n => iff_of_true (equals_num_toDouble n) trivial
  | .str s => iff_of_true (beq_self_eq_true (some s)) trivial
  | .arr items => equalsEach_ofJsonItems_iff items
  | .obj _ => iff_of_false Bool.false_ne_true And.left

theorem equalsEach_ofJsonItems_iff :
    ∀ items : List Json, equalsEach (ofJsonItems items) items = true ↔
    Json.ThroughoutItems (fun _ => False) (fun _ => True) items
  | [] => iff_of_true rfl trivial
  | item :: rest => by
    rw [ofJsonItems, equalsEach, Bool.and_eq_true, equals_ofJson_iff item,
      equalsEach_ofJsonItems_iff rest]
    rfl

end

private theorem equalsField_ofJson {value : Json} (hfree : value.IsObjectFree) :
    (ofJson value).equalsField value = true :=
  Bool.or_eq_true_iff.mpr (.inl ((equals_ofJson_iff value).mpr hfree))

end Literal

private theorem Json.IsObjectFree.of_mem {items : List Json} (hfree : (Json.arr items).IsObjectFree)
    {item : Json} (hitem : item ∈ items) : item.IsObjectFree := by
  have hitems : ThroughoutItems (fun _ => False) (fun _ => True) items := hfree
  induction items with
  | nil => cases hitem
  | cons first rest ih =>
    rcases List.mem_cons.mp hitem with rfl | hrest
    · exact hitems.1
    · exact ih hitems.2 hrest hitems.2

namespace Predicate

/-- A field that holds a value without objects meets the typed tests that are made from the value:
    it equals the literal of the value, is in every list that has this literal, and, where it holds
    an array, contains each of the elements, null and arrays among them. -/
theorem accepts_own_literal {d : Document} {field : String} {value : Json}
    (hfield : d.field? field = some value) (hnull : value ≠ .null) (hfree : value.IsObjectFree) :
    accepts d (.test field .eq (.ofJson value)) = true ∧
    accepts d (.test field .ne (.ofJson value)) = false ∧
    (∀ items, Literal.ofJson value ∈ items →
      accepts d (.test field .isIn (.list items)) = true) ∧
    ∀ elements, value = .arr elements → ∀ element ∈ elements,
      accepts d (.test field .contains (.ofJson element)) = true := by
  have hequals : Operator.eq.holds (some value) (.ofJson value) = true := by
    cases value with
    | null => exact absurd rfl hnull
    | bool _ | num _ | str _ | arr _ | obj _ => exact Literal.equalsField_ofJson hfree
  simp only [accepts, hfield]
  refine ⟨hequals, ?_, fun items hmem => ?_, ?_⟩
  · rw [Operator.holds_ne, hequals]
    rfl
  · rw [Operator.holds_isIn_eq_any]
    exact List.any_eq_true.mpr ⟨_, hmem, hequals⟩
  · rintro elements rfl element helement
    refine List.any_eq_true.mpr ⟨element, helement, ?_⟩
    exact (Literal.equals_ofJson_iff element).mpr (hfree.of_mem helement)

/-- A post with readings: a row with a gap in it, and a number that no double holds. -/
def measured : Document :=
  ⟨"p1", "posts", [("readings", .arr [.arr [.num (.int 31 (by decide)), .null],
    .num (.int 9007199254740993 (by decide)), .bool true])], .epoch, .epoch⟩

/-- The readings are in a list with their own literal, and contain the row with the gap. -/
theorem accepts_measured_readings :
    ∃ elements, measured.field? "readings" = some (.arr elements) ∧
      Json.arr elements ≠ .null ∧
      (Json.arr elements).IsObjectFree ∧ .arr [.num (.int 31 (by decide)), .null] ∈ elements ∧
      accepts measured (.test "readings" .isIn (.list [.null, .ofJson (.arr elements)])) = true ∧
      accepts measured
        (.test "readings" .contains (.ofJson (.arr [.num (.int 31 (by decide)), .null]))) =
          true := by
  have hfree :
      (Json.arr [.arr [.num (.int 31 (by decide)), .null], .num (.int 9007199254740993 (by decide)),
      .bool true]).IsObjectFree := by decide
  obtain ⟨-, -, hisIn, hcontains⟩ :=
    @accepts_own_literal measured "readings" _ rfl Json.noConfusion hfree
  refine ⟨_, rfl, Json.noConfusion, hfree, List.mem_cons_self, hisIn _ ?_,
    hcontains _ rfl _ List.mem_cons_self⟩
  exact List.mem_cons_of_mem _ List.mem_cons_self

end Predicate

end DocQuery
