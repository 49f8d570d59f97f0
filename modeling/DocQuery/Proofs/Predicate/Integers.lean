import DocQuery.Filter.Clause
import DocQuery.Proofs.Number.Integers
import DocQuery.Proofs.Predicate.Operators
import DocQuery.Proofs.Steps
import DocQuery.Proofs.Store.Matching

namespace DocQuery

namespace Double

/-- Integers compare as numbers as they do themselves, unless they become the same number. -/
theorem compare?_ofInt (i j : Int) :
    (ofInt i).compare? (ofInt j) = some (if ofInt i = ofInt j then .eq else compare i j) := by
  rw [compare?, isNaN_ofInt, isNaN_ofInt, compare_key_ofInt]
  rfl

end Double

namespace Json

/-- The order of scans tells two integers apart only if they become different numbers. -/
theorem order_integers {i j : Int} (hi : -0x8000000000000000 ≤ i ∧ i < 0x10000000000000000)
    (hj : -0x8000000000000000 ≤ j ∧ j < 0x10000000000000000) :
    (Json.num (.int i hi)).order (.num (.int j hj)) =
      if Double.ofInt i = Double.ofInt j then .eq else compare i j := by
  rw [← Double.compare_key_ofInt, ← Double.totalCompare_ofInt]
  rfl

end Json

namespace Operator

/-- The operators that a field is compared with an integer by. -/
def ofNumbers : List Operator := eq :: ne :: bounds

/-- The relation between integers that an operator stands for. -/
def relatesIntegers (op : Operator) (i j : Int) : Bool :=
  match op with
  | .eq => decide (i = j)
  | .ne => decide (i ≠ j)
  | .gt => decide (j < i)
  | .gte => decide (j ≤ i)
  | .lt => decide (i < j)
  | .lte => decide (i ≤ j)
  | _ => false

variable {op : Operator} {i j : Int}

private theorem boundHolds_compare (hop : op ∈ bounds) (i j : Int) :
    op.boundHolds (compare i j) = op.relatesIntegers i j := by
  simp only [bounds, List.mem_cons, List.not_mem_nil, or_false] at hop
  rcases hop with rfl | rfl | rfl | rfl
  · rw [Bool.eq_iff_iff]
    simp [boundHolds, relatesIntegers, Int.compare_eq_gt]
  · rw [Bool.eq_iff_iff]
    simp [boundHolds, relatesIntegers, Int.compare_ne_lt]
  · rw [Bool.eq_iff_iff]
    simp [boundHolds, relatesIntegers, Int.compare_eq_lt]
  · rw [Bool.eq_iff_iff]
    simp [boundHolds, relatesIntegers, Int.compare_ne_gt]

private theorem holds_eq_number (n : Number) (d : Double) :
    eq.holds (some (.num n)) (.num d) = (n.toDouble.compare? d == some .eq) := by
  rw [Double.compare?_beq_eq]
  exact Bool.or_false _

private theorem holds_bound_number (hop : op ∈ bounds) (n : Number) (d : Double) :
    op.holds (some (.num n)) (.num d) = (n.toDouble.compare? d).any op.boundHolds :=
  holds_bound hop _ _

/-- A stored integer is compared with an integer as if the two were equal where they become the same
    number. -/
theorem holds_integer (hop : op ∈ ofNumbers)
    (hi : -0x8000000000000000 ≤ i ∧ i < 0x10000000000000000) (j : Int) :
    op.holds (some (.num (.int i hi))) (.num (Double.ofInt j)) =
      op.relatesIntegers (if Double.ofInt i = Double.ofInt j then j else i) j := by
  have hcompare : (Number.int i hi).toDouble.compare? (Double.ofInt j) =
      some (compare (if Double.ofInt i = Double.ofInt j then j else i) j) := by
    rw [Number.toDouble, Double.compare?_ofInt]
    split
    · rw [Std.ReflOrd.compare_self]
    · rfl
  generalize (if Double.ofInt i = Double.ofInt j then j else i) = compared at *
  have heq : eq.holds (some (.num (.int i hi))) (.num (Double.ofInt j)) =
      eq.relatesIntegers compared j := by
    rw [holds_eq_number, hcompare, Bool.eq_iff_iff]
    simp [relatesIntegers]
  rcases List.mem_cons.mp hop with rfl | hop
  · exact heq
  rcases List.mem_cons.mp hop with rfl | hop
  · rw [holds_ne, heq]
    simp [relatesIntegers]
  · rw [holds_bound_number hop, hcompare, Option.any_some, boundHolds_compare hop]

end Operator

namespace Clause

private theorem parseValue_number {op : Operator} (hop : op ∈ Operator.ofNumbers) (key : String)
    (n : Number) :
    parseValue key op (.json (.num n)) = .ok (.num n.toDouble) := by
  simp only [Operator.ofNumbers, Operator.bounds, List.mem_cons, List.not_mem_nil, or_false] at hop
  rcases hop with rfl | rfl | rfl | rfl | rfl | rfl <;> rfl

/-- A number in a clause becomes the literal that the operator compares with. -/
theorem value_of_parse_number {key : String} {n : Number} {c : Clause}
    (hparse : parse key (.json (.num n)) = .ok c) (hop : c.op ∈ Operator.ofNumbers) :
    c.value = .num n.toDouble := by
  obtain ⟨_, -, hparse⟩ := bind_eq_ok_iff.mp hparse
  obtain ⟨_, -, hparse⟩ := bind_eq_ok_iff.mp hparse
  obtain ⟨_, hvalue, hparse⟩ := bind_eq_ok_iff.mp hparse
  cases hparse
  exact Except.ok.inj (hvalue.symm.trans (parseValue_number hop key n))

end Clause

namespace Predicate

open Double (ofInt)

/-- Integers in filters and in the order of scans. A field that holds an integer is compared with an
    integer that is read from a JSON value as integers are, except that two integers that become the
    same binary64 number are taken for equal; and in ascending order a larger integer stands before
    a smaller one only if they become the same number. Distinct integers that do are both at least
    `2 ^ 53` in absolute value, and one of them is larger. -/
theorem integers_compare_as_doubles :
    (∀ {i j : Int} (hi : -0x8000000000000000 ≤ i ∧ i < 0x10000000000000000)
        (hj : -0x8000000000000000 ≤ j ∧ j < 0x10000000000000000) {key : String}
          {c : Clause} {d : Document},
      Clause.parse key (.json (.num (.int j hj))) = .ok c → c.op ∈ Operator.ofNumbers →
      d.field? c.path.target = some (.num (.int i hi)) →
        (ofInt i ≠ ofInt j →
          accepts d (.test c.path.target c.op c.value) = c.op.relatesIntegers i j) ∧
        (ofInt i = ofInt j →
          accepts d (.test c.path.target c.op c.value) = c.op.relatesIntegers j j)) ∧
    (∀ (s : Store) (collection field : String) (wanted : Scan) (keys : List SortKey),
      wanted.sort = ⟨field, .ascending⟩ :: keys →
        (s.scan collection wanted).documents.Pairwise fun a b => ∀ i j hi hj,
          a.field? field = some (.num (.int i hi)) → b.field? field = some (.num (.int j hj)) →
            i ≤ j ∨ ofInt i = ofInt j) ∧
    ∀ i j : Int, ofInt i = ofInt j →
      i = j ∨ 2 ^ 53 ≤ i.natAbs ∧ 2 ^ 53 ≤ j.natAbs ∧
      (2 ^ 53 < i.natAbs ∨ 2 ^ 53 < j.natAbs) := by
  refine ⟨fun {i j} hi hj {key c d} hparse hop hstored => ?_,
    fun s collection field wanted keys hsort => ?_,
    fun i j hsame => or_iff_not_imp_left.mpr (Double.natAbs_of_ofInt_eq hsame)⟩
  · have hvalue : c.value = .num (ofInt j) := Clause.value_of_parse_number hparse hop
    rw [accepts, hstored, hvalue, Operator.holds_integer hop hi]
    exact ⟨fun hne => by rw [if_neg hne], fun hsame => by rw [if_pos hsame]⟩
  · refine ((s.pairwise_matching collection wanted).sublist
      (s.scan_sublist_matching collection wanted)).imp ?_
    intro a b hle i j hi hj ha hb
    rw [hsort] at hle
    have hkey : (SortKey.order ⟨field, .ascending⟩ a b).isLE :=
      Ordering.isLE_left_of_isLE_then hle
    simp only [SortKey.order, ha, hb, Option.getD_some, Json.order_integers hi hj] at hkey
    by_cases hsame : ofInt i = ofInt j
    · exact .inr hsame
    · rw [if_neg hsame] at hkey
      exact .inl (Int.isLE_compare.mp hkey)

/-- A post that was seen a number of times. -/
def seenPost (id : String) (views : Int)
    (hviews : -0x8000000000000000 ≤ views ∧ views < 0x10000000000000000) :
    Document :=
  ⟨id, "posts", [("views", .num (.int views hviews))], .epoch, .epoch⟩

/-- A post of the least number there is, and two of numbers that are the same in binary64. -/
def seenPosts : List Document :=
  [seenPost "p1" (-9223372036854775808) (by decide), seenPost "p2" 9007199254740997 (by decide),
    seenPost "p3" 9007199254740996 (by decide)]

/-- Posts by the numbers of times they were seen. -/
def byViews : Scan := ⟨none, [⟨"views", .ascending⟩], none, 0, true⟩

/-- The least and the largest integers are as far apart as they can be. -/
theorem accepts_seenPost_lt_largest :
    Clause.parse "views__lt" (.json (.num (.int 18446744073709551615 (by decide)))) =
      .ok ⟨.direct "views", .lt, .num (ofInt 18446744073709551615), none⟩ ∧
    accepts (seenPost "p1" (-9223372036854775808) (by decide))
      (.test "views" .lt (.num (ofInt 18446744073709551615))) = true ∧
    ((Store.empty.insert "posts" seenPosts).1.scan "posts" byViews).documents.Pairwise
      fun a b => ∀ i j hi hj,
      a.field? "views" = some (.num (.int i hi)) → b.field? "views" = some (.num (.int j hj)) →
        i ≤ j ∨ ofInt i = ofInt j := by
  have hparse : Clause.parse "views__lt" (.json (.num (.int 18446744073709551615 (by decide)))) =
      .ok ⟨.direct "views", .lt, .num (ofInt 18446744073709551615), none⟩ := by decide +kernel
  have hne : ofInt (-9223372036854775808) ≠ ofInt 18446744073709551615 := by decide +kernel
  obtain ⟨hfilter, hscan, -⟩ := integers_compare_as_doubles
  have hholds :=
    (hfilter (d := seenPost "p1" (-9223372036854775808) (by decide)) (by decide) (by decide) hparse
    (by decide) rfl).1 hne
  exact ⟨hparse, hholds, hscan _ "posts" "views" byViews [] rfl⟩

/-- A post that was seen once more often than another is taken for one that was seen as often, and
    stands before it for its id. -/
theorem accepts_seenPost_eq_less :
    Clause.parse "views" (.json (.num (.int 9007199254740996 (by decide)))) =
      .ok ⟨.direct "views", .eq, .num (ofInt 9007199254740996), none⟩ ∧
    accepts (seenPost "p2" 9007199254740997 (by decide))
      (.test "views" .eq (.num (ofInt 9007199254740996))) = true ∧
    accepts (seenPost "p2" 9007199254740997 (by decide))
      (.test "views" .gt (.num (ofInt 9007199254740996))) = false ∧
    ((Store.empty.insert "posts" seenPosts).1.scan "posts" byViews).documents.map Document.id =
      ["p1", "p2", "p3"] := by
  have hsorted : (Store.empty.insert "posts" seenPosts).1.matching "posts" byViews = seenPosts := by
    rw [Store.matching_eq_mergeSort]
    exact List.mergeSort_of_pairwise (by decide +kernel)
  exact ⟨by decide +kernel, by decide +kernel, by decide +kernel,
    congrArg (List.map Document.id) hsorted⟩

end Predicate

end DocQuery
