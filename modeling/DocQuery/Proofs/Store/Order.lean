import DocQuery.Store.Order

namespace DocQuery

/-- Along an ascending chain the first step that is strict decides. -/
theorem order_eq_then_of_isLE {α : Type} {cmp : α → α → Ordering} [Std.TransCmp cmp]
    {a b c : α} (hab : (cmp a b).isLE) (hbc : (cmp b c).isLE) :
    cmp a c = (cmp a b).then (cmp b c) := by
  cases h : cmp a b with
  | lt => exact Std.TransCmp.lt_of_lt_of_isLE h hbc
  | eq => rw [Std.TransCmp.congr_left h, Ordering.eq_then]
  | gt => simp [h] at hab

/-- An order that turns with its sides puts any two things one way round or the other. -/
theorem isLE_or_isLE {α : Type} {cmp : α → α → Ordering} [Std.OrientedCmp cmp] (a b : α) :
    ((cmp a b).isLE || (cmp b a).isLE) = true := by
  have hswap : cmp a b = (cmp b a).swap := Std.OrientedCmp.eq_swap
  rw [hswap]
  cases cmp b a <;> rfl

namespace Json

/-- Values whose arrays hold only values that a property is known of. -/
theorem induction_on_items {motive : Json → Prop}
    (scalar : ∀ a : Json, (∀ items, a ≠ .arr items) → motive a)
    (arr : ∀ items, (∀ item ∈ items, motive item) → motive (.arr items)) (a : Json) :
    motive a := by
  match a with
  | .null | .bool _ | .num _ | .str _ | .obj _ => exact scalar _ fun _ h => by cases h
  | .arr items => exact arr items fun item hitem => induction_on_items scalar arr item
termination_by sizeOf a
decreasing_by
  have hlt := List.sizeOf_lt_of_mem hitem
  simp only [Json.arr.sizeOf_spec]
  omega

private theorem order_of_rank_ne {a b : Json} (hne : a.rank ≠ b.rank) :
    a.order b = compare a.rank b.rank := by
  cases a <;> cases b <;> first | rfl | exact absurd rfl hne

private theorem rank_le_of_isLE {a b : Json} (hle : (a.order b).isLE) : a.rank ≤ b.rank := by
  by_cases heq : a.rank = b.rank
  · exact Nat.le_of_eq heq
  · rw [order_of_rank_ne heq] at hle
    exact Nat.isLE_compare.mp hle

/-- What truth values are compared by. Values of other types are alike. -/
def boolKey : Json → Bool
  | .bool b => b
  | _ => false

/-- What numbers are compared by. -/
def numberKey : Json → Int
  | .num n => n.toDouble.totalKey
  | _ => 0

/-- What strings are compared by. -/
def stringKey : Json → String
  | .str s => s
  | _ => ""

/-- Among the values of one type, arrays apart, the order is that of a key. -/
theorem exists_key_of_scalar {a : Json} (hscalar : ∀ items, a ≠ .arr items) :
    ∃ cmp : Json → Json → Ordering, Std.TransCmp cmp ∧
      ∀ b c, b.rank = a.rank → c.rank = a.rank → b.order c = cmp b c := by
  cases a with
  | null | obj _ =>
    refine ⟨compareOn fun _ => false, inferInstance, fun b c hb hc => ?_⟩
    cases b <;> cases hb
    cases c <;> cases hc
    rfl
  | bool _ =>
    refine ⟨compareOn boolKey, inferInstance, fun b c hb hc => ?_⟩
    cases b <;> cases hb
    cases c <;> cases hc
    rfl
  | num _ =>
    refine ⟨compareOn numberKey, inferInstance, fun b c hb hc => ?_⟩
    cases b <;> cases hb
    cases c <;> cases hc
    rfl
  | str _ =>
    refine ⟨compareOn stringKey, inferInstance, fun b c hb hc => ?_⟩
    cases b <;> cases hb
    cases c <;> cases hc
    rfl
  | arr items => exact absurd rfl (hscalar items)

private theorem orderItems_swap {as bs : List Json}
    (hitems : ∀ a ∈ as, ∀ b, a.order b = (b.order a).swap) :
    orderItems as bs = (orderItems bs as).swap := by
  induction as generalizing bs with
  | nil => cases bs <;> rfl
  | cons a as ih =>
    cases bs with
    | nil => rfl
    | cons b bs =>
      rw [orderItems, orderItems, Ordering.swap_then, ← hitems a List.mem_cons_self b,
        ← ih fun a' ha' => hitems a' (List.mem_cons_of_mem a ha')]

/-- Compared the other way round, values stand the other way round. -/
theorem order_swap (a b : Json) : a.order b = (b.order a).swap := by
  induction a using induction_on_items generalizing b with
  | scalar a hscalar =>
    by_cases hrank : a.rank = b.rank
    · obtain ⟨cmp, _, hcmp⟩ := exists_key_of_scalar hscalar
      rw [hcmp a b rfl hrank.symm, hcmp b a hrank.symm rfl]
      exact Std.OrientedCmp.eq_swap
    · rw [order_of_rank_ne hrank, order_of_rank_ne (Ne.symm hrank)]
      exact Std.OrientedCmp.eq_swap
  | arr items ih =>
    cases b with
    | arr others => exact orderItems_swap ih
    | null | bool _ | num _ | str _ | obj _ => rfl

private theorem orderItems_eq_then {as bs cs : List Json}
    (hitems : ∀ a ∈ as, ∀ b c, (a.order b).isLE → (b.order c).isLE →
      a.order c = (a.order b).then (b.order c))
    (hab : (orderItems as bs).isLE) (hbc : (orderItems bs cs).isLE) :
    orderItems as cs = (orderItems as bs).then (orderItems bs cs) := by
  induction as generalizing bs cs with
  | nil =>
    cases bs with
    | nil => rw [show orderItems [] [] = .eq from rfl, Ordering.eq_then]
    | cons b bs =>
      cases cs with
      | nil => cases hbc
      | cons c cs => rfl
  | cons a as ih =>
    cases bs with
    | nil => cases hab
    | cons b bs =>
      cases cs with
      | nil => cases hbc
      | cons c cs =>
        rw [orderItems] at hab hbc
        have hfirst := hitems a List.mem_cons_self b c (Ordering.isLE_left_of_isLE_then hab)
          (Ordering.isLE_left_of_isLE_then hbc)
        rw [orderItems, orderItems, orderItems, hfirst]
        rcases Ordering.isLE_then_iff_or.mp hab with hlt | ⟨heq, hrest⟩
        · simp [hlt]
        · rcases Ordering.isLE_then_iff_or.mp hbc with hlt | ⟨heq', hrest'⟩
          · cases h : orderItems as bs <;> simp_all
          · simp [heq, heq',
              ih (fun a' ha' => hitems a' (List.mem_cons_of_mem a ha')) hrest hrest']

/-- Where an ascending chain passes a type, the step that does is strict, and decides. -/
theorem order_eq_then_of_rank_lt {a b c : Json} (hab : (a.order b).isLE) (hbc : (b.order c).isLE)
    (hpassed : a.rank < b.rank ∨ b.rank < c.rank) : a.order c = (a.order b).then (b.order c) := by
  have habRank := rank_le_of_isLE hab
  have hbcRank := rank_le_of_isLE hbc
  rw [order_of_rank_ne (by omega : a.rank ≠ c.rank), Nat.compare_eq_lt.mpr (by omega)]
  by_cases hltab : a.rank < b.rank
  · rw [order_of_rank_ne (by omega), Nat.compare_eq_lt.mpr hltab, Ordering.lt_then]
  · have hlt : b.order c = .lt := by
      rw [order_of_rank_ne (by omega), Nat.compare_eq_lt.mpr (by omega)]
    rw [hlt]
    cases h : a.order b with
    | lt | eq => rfl
    | gt => simp [h] at hab

/-- Along an ascending chain of values the first step that is strict decides. Where no step passes a
    type, all three values compare as values of their type do. -/
theorem order_eq_then (a b c : Json) (hab : (a.order b).isLE) (hbc : (b.order c).isLE) :
    a.order c = (a.order b).then (b.order c) := by
  have habRank := rank_le_of_isLE hab
  have hbcRank := rank_le_of_isLE hbc
  by_cases hpassed : a.rank < b.rank ∨ b.rank < c.rank
  · exact order_eq_then_of_rank_lt hab hbc hpassed
  -- Elements of arrays may be of any types, so the induction starts where all three are of one.
  obtain ⟨hb, hc⟩ : b.rank = a.rank ∧ c.rank = a.rank := by omega
  clear habRank hbcRank hpassed
  induction a using induction_on_items generalizing b c with
  | scalar a hscalar =>
    obtain ⟨cmp, _, hcmp⟩ := exists_key_of_scalar hscalar
    rw [hcmp a b rfl hb] at hab ⊢
    rw [hcmp b c hb hc] at hbc ⊢
    rw [hcmp a c rfl hc]
    exact order_eq_then_of_isLE hab hbc
  | arr items ih =>
    cases b with
    | null | bool _ | num _ | str _ | obj _ => cases hb
    | arr others =>
      cases c with
      | null | bool _ | num _ | str _ | obj _ => cases hc
      | arr more =>
        refine orderItems_eq_then (fun item hitem b c hab hbc => ?_) hab hbc
        by_cases hpassed : item.rank < b.rank ∨ b.rank < c.rank
        · exact order_eq_then_of_rank_lt hab hbc hpassed
        · have habRank := rank_le_of_isLE hab
          have hbcRank := rank_le_of_isLE hbc
          exact ih item hitem b c hab hbc (by omega) (by omega)

instance : Std.TransCmp order where
  eq_swap := order_swap _ _
  isLE_trans := by
    intro a b c hab hbc
    rw [order_eq_then a b c hab hbc]
    cases h : a.order b with
    | lt => rfl
    | eq => exact hbc
    | gt => simp [h] at hab

end Json

instance (key : SortKey) : Std.TransCmp key.order where
  eq_swap := by
    intro a b
    unfold SortKey.order
    cases key.direction <;> exact Std.OrientedCmp.eq_swap
  isLE_trans := by
    intro a b c hab hbc
    unfold SortKey.order at hab hbc ⊢
    cases hdirection : key.direction with
    | ascending =>
      simp only [hdirection] at hab hbc
      exact Std.TransCmp.isLE_trans hab hbc
    | descending =>
      simp only [hdirection] at hab hbc
      exact Std.TransCmp.isLE_trans hbc hab

namespace Document

theorem order_cons (key : SortKey) (rest : List SortKey) :
    order (key :: rest) = compareLex key.order (order rest) := rfl

instance (keys : List SortKey) : Std.TransCmp (order keys) := by
  induction keys with
  | nil => exact { eq_swap := rfl, isLE_trans := fun _ _ => rfl }
  | cons key rest ih =>
    rw [order_cons]
    infer_instance

/-- Documents are ordered by their ids as texts, whatever data is called like the id. -/
theorem order_idField (direction : Direction) (a b : Document) :
    SortKey.order ⟨idField, direction⟩ a b = match direction with
      | .ascending => compare a.id b.id
      | .descending => compare b.id a.id := by
  cases direction <;> rfl

end Document

end DocQuery
