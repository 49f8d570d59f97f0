import DocQuery.Hydration
import DocQuery.Proofs.Filter.Resolution
import DocQuery.Proofs.Number.Format
import DocQuery.Proofs.Relation.Candidates

/-!
References held as numbers. Hydration follows a number to the document whose id is the text of the
number. A filter tests the id against the number instead, so it also accepts ids that spell the
number otherwise.
-/
namespace DocQuery

namespace Number

/-- Whether a text is another spelling of a number: one that is not its text, but reads as the
    nearest binary64 number. -/
def IsRespelledBy (n : Number) (s : String) : Prop :=
  s ≠ n.text ∧ ((Double.read? s).any fun d => d.sameValue n.toDouble) = true

instance (n : Number) (s : String) : Decidable (n.IsRespelledBy s) :=
  inferInstanceAs (Decidable (_ ∧ _))

end Number

/-- Whether a value is the one of some numbers, or an array of them. -/
def Json.HoldsNumbers (stored : Json) (numbers : List Number) : Prop :=
  (∃ n, numbers = [n] ∧ stored = .num n) ∨ stored = .arr (numbers.map .num)

namespace Literal

/-- A text equals a number if it is the text of the number or another spelling of it. -/
theorem equals_text_num_iff (s : String) (n : Number) :
    (text s).equals (.num n) = true ↔ n.text = s ∨ n.IsRespelledBy s := by
  change (Double.read? s).any (fun d => d.sameValue n.toDouble) = true ↔ _
  by_cases hs : n.text = s
  · have hsame := Double.sameValue_self (Double.isNaN_of_isFinite n.isFinite_toDouble)
    subst hs
    rw [n.read?_text]
    exact iff_of_true hsame (.inl rfl)
  · simp [Number.IsRespelledBy, hs, Ne.symm hs]

/-- A field that holds a number, or an array of numbers, equals what one of the numbers equals. -/
theorem equalsField_text_iff {stored : Json} {numbers : List Number}
    (hstored : stored.HoldsNumbers numbers) (s : String) :
    (text s).equalsField stored = true ↔ ∃ n ∈ numbers, (text s).equals (.num n) = true := by
  rcases hstored with ⟨n, rfl, rfl⟩ | rfl
  · change ((text s).equals (.num n) || false) = true ↔ _
    rw [Bool.or_false]
    exact ⟨fun hn => ⟨n, List.mem_singleton_self n, hn⟩,
      fun ⟨_, hmem, hn⟩ => List.mem_singleton.mp hmem ▸ hn⟩
  · change (false || (numbers.map Json.num).any (text s).equals) = true ↔ _
    rw [Bool.false_or, List.any_map, List.any_eq_true]
    rfl

end Literal

namespace Clause

/-- The test for an id accepts a reference field that holds numbers exactly when hydration follows
    one of them to that id, or when the id spells one of them in another way. -/
theorem accepts_membership_number_iff {catalog : Catalog} {field : String} {r : Reference}
    (hr : catalog.resolve? field = some r) {d : Document} {stored : Json} {numbers : List Number}
    (hget : Entries.get? field d.data = some stored) (hstored : stored.HoldsNumbers numbers)
    (s : String) :
    (membership [(r.target, [s])] r).accepts d = true ↔
      ∃ n ∈ numbers, Hydration.idOf? (.num n) = some s ∨ n.IsRespelledBy s := by
  have hids : idsFor [(r.target, [s])] r.target = [s] := by simp [idsFor]
  have hrefers : r.refersTo d s = (Literal.text s).equalsField stored := by
    rw [Reference.refersTo, Catalog.field_of_resolve? hr, Catalog.field?_of_resolve? hr, hget]
    rcases hstored with ⟨n, -, rfl⟩ | rfl <;> rfl
  have hid : ∀ n : Number, Hydration.idOf? (.num n) = some s ↔ n.text = s :=
    fun _ => Option.some_inj
  rw [accepts_membership, hids, List.any_cons, List.any_nil, Bool.or_false, hrefers,
    Literal.equalsField_text_iff hstored]
  simp only [Literal.equals_text_num_iff, hid]

/-- A post whose user is `2 ^ 53`, the last integer below which all are binary64 numbers. -/
def numericPost : Document :=
  ⟨"p1", "posts", [("user_id", .num (.int 9007199254740992 (by decide)))], .epoch, .epoch⟩

/-- The reference to the user of a post. -/
def userReference : Reference := ⟨"user_id", .single, ⟨.user, "users"⟩, false, "users"⟩

private theorem resolve?_user_id :
    (⟨{}, []⟩ : Catalog).resolve? "user_id" = some userReference := by decide +kernel

/-- The post is found by the id of its user. -/
theorem accepts_membership_number_own :
    (⟨{}, []⟩ : Catalog).resolve? "user_id" = some userReference ∧
    Hydration.idOf? (.num (.int 9007199254740992 (by decide))) = some "9007199254740992" ∧
    (membership [(userReference.target, ["9007199254740992"])] userReference).accepts
      numericPost = true := by
  have hid : Hydration.idOf?
      (.num (.int 9007199254740992 (by decide))) = some "9007199254740992" := by
    decide +kernel
  have hiff := @accepts_membership_number_iff _ _ _ resolve?_user_id numericPost _ _ rfl
    (.inl ⟨_, rfl, rfl⟩) "9007199254740992"
  exact ⟨resolve?_user_id, hid, hiff.mpr ⟨_, List.mem_singleton_self _, .inl hid⟩⟩

/-- The post is also found by the id of the next user, to whom hydration does not lead. -/
theorem accepts_membership_number_next :
    (membership [(userReference.target, ["9007199254740993"])] userReference).accepts
      numericPost = true ∧
    Hydration.idOf?
      (.num (.int 9007199254740992 (by decide))) ≠ some "9007199254740993" := by decide +kernel

end Clause

end DocQuery
