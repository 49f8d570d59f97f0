import Mathlib
import DocQuery.Proofs.Text.Order
import DocQuery.Time.Reader

namespace DocQuery

namespace Decimal

/-- A digit more moves those before it up by one place. -/
theorem ofDigits_concat (ds : List Char) (c : Char) :
    ofDigits (ds ++ [c]) = 10 * ofDigits ds + (c.toNat - '0'.toNat) := by
  rw [ofDigits, List.foldl_append]
  rfl

private theorem ofDigits_concat_digitChar (ds : List Char) {n : Nat} (hn : n < 10) :
    ofDigits (ds ++ [n.digitChar]) = 10 * ofDigits ds + n := by
  rw [ofDigits_concat]
  exact congrArg (10 * ofDigits ds + ·) (Nat.toNat_digitChar_sub_48_of_lt_ten hn)

private theorem isDigit_digitChar {n : Nat} (hn : n < 10) : n.digitChar.isDigit = true := by
  rw [Nat.isDigit_digitChar, decide_eq_true hn]

/-- A digit is the one that its value is written as. -/
theorem digitChar_of_isDigit {c : Char} (hc : c.isDigit = true) :
    c.toNat - '0'.toNat < 10 ∧ (c.toNat - '0'.toNat).digitChar = c := by
  obtain ⟨hzero, hnine⟩ := Char.isDigit_iff_toNat.mp hc
  have hlt : c.toNat - '0'.toNat < 10 := by
    have hdigits : '9'.toNat = '0'.toNat + 9 := rfl
    omega
  refine ⟨hlt, Char.toNat_inj.mp ?_⟩
  have hzero' : '0'.toNat = 48 := rfl
  rw [Nat.toNat_digitChar_of_lt_ten hlt]
  omega

private theorem compare_digitChar :
    ∀ m < 10, ∀ n < 10, compare m.digitChar n.digitChar = compare m n := by decide

end Decimal

namespace Instant

open Decimal

variable {width m n : Nat}

private theorem padded_one (hn : n < 10) : padded 1 n = [n.digitChar] := by
  rw [padded, digits, Nat.toDigits_of_lt_base hn]
  rfl

/-- A number is written as the number without its last digit, and that digit. -/
theorem padded_succ (width n : Nat) :
    padded (width + 2) n = padded (width + 1) (n / 10) ++ [(n % 10).digitChar] := by
  by_cases hn : n < 10
  · have hzeros : List.replicate (width + 1) '0' = List.replicate width '0' ++ ['0'] :=
      List.replicate_succ'
    rw [padded, padded, digits, digits, Nat.toDigits_of_lt_base hn,
      Nat.div_eq_of_lt hn, Nat.mod_eq_of_lt hn]
    exact congrArg (· ++ [n.digitChar]) hzeros
  · have hdigits : digits n = digits (n / 10) ++ [(n % 10).digitChar] :=
      Nat.toDigits_of_base_le (by decide) (Nat.not_lt.mp hn)
    have hwidth : width + 2 - (digits n).length = width + 1 - (digits (n / 10)).length := by
      rw [hdigits, List.length_append, List.length_singleton]
      omega
    rw [padded, hwidth, hdigits, padded, List.append_assoc]

/-- What a number below a power of ten is written as are the digits, as many as asked, that spell
    it. -/
theorem eq_padded_iff {ds : List Char} :
    n < 10 ^ (width + 1) ∧ ds = padded (width + 1) n ↔
      ds.length = width + 1 ∧ (∀ c ∈ ds, c.isDigit = true) ∧ ofDigits ds = n := by
  induction width generalizing n ds with
  | zero =>
    constructor
    · rintro ⟨hn, rfl⟩
      rw [padded_one hn]
      exact ⟨rfl, fun c hc => List.mem_singleton.mp hc ▸ isDigit_digitChar hn,
        (ofDigits_concat_digitChar [] hn).trans (Nat.zero_add n)⟩
    · rintro ⟨hlength, hdigits, rfl⟩
      obtain ⟨c, rfl⟩ := List.length_eq_one_iff.mp hlength
      obtain ⟨hlt, hc⟩ := digitChar_of_isDigit (hdigits c List.mem_cons_self)
      have hvalue : ofDigits [c] = c.toNat - '0'.toNat :=
        (ofDigits_concat [] c).trans (Nat.zero_add _)
      rw [hvalue, padded_one hlt, hc]
      exact ⟨hlt, rfl⟩
  | succ width ih =>
    constructor
    · rintro ⟨hn, rfl⟩
      obtain ⟨hlength, hdigits, hvalue⟩ :=
        ih.mp ⟨(by omega : n / 10 < 10 ^ (width + 1)), rfl⟩
      have hlast := Nat.mod_lt n (show 0 < 10 by decide)
      rw [padded_succ, ofDigits_concat_digitChar _ hlast, hvalue, List.length_append, hlength]
      refine ⟨rfl, fun c hc => ?_, Nat.div_add_mod n 10⟩
      rcases List.mem_append.mp hc with hc | hc
      · exact hdigits c hc
      · exact List.mem_singleton.mp hc ▸ isDigit_digitChar hlast
    · rintro ⟨hlength, hdigits, rfl⟩
      obtain ⟨init, c, rfl⟩ : ∃ init c, ds = init ++ [c] :=
        ⟨_, _, (List.dropLast_concat_getLast (List.ne_nil_of_length_eq_add_one hlength)).symm⟩
      obtain ⟨hlt, hc⟩ :=
        digitChar_of_isDigit (hdigits c (List.mem_append_right init List.mem_cons_self))
      rw [List.length_append, List.length_singleton] at hlength
      obtain ⟨hsmall, hinit⟩ := ih.mpr ⟨Nat.succ.inj hlength,
        fun c hc => hdigits c (List.mem_append_left _ hc), rfl⟩
      rw [ofDigits_concat, padded_succ]
      have hdiv : (10 * ofDigits init + (c.toNat - '0'.toNat)) / 10 = ofDigits init := by omega
      have hmod : (10 * ofDigits init + (c.toNat - '0'.toNat)) % 10 =
          c.toNat - '0'.toNat := by omega
      rw [hdiv, hmod, hc, ← hinit]
      exact ⟨by omega, rfl⟩

private theorem length_padded (hn : n < 10 ^ (width + 1)) :
    (padded (width + 1) n).length = width + 1 :=
  (eq_padded_iff.mp ⟨hn, rfl⟩).1

private theorem compare_padded (hm : m < 10 ^ (width + 1)) (hn : n < 10 ^ (width + 1)) :
    compare (padded (width + 1) m) (padded (width + 1) n) = compare m n := by
  induction width generalizing m n with
  | zero =>
    rw [padded_one hm, padded_one hn, List.compare_cons_cons, compare_digitChar m hm n hn]
    exact Ordering.then_eq
  | succ width ih =>
    have hm' : m / 10 < 10 ^ (width + 1) := by omega
    have hn' : n / 10 < 10 ^ (width + 1) := by omega
    rw [padded_succ, padded_succ,
      Text.compare_append ((length_padded hm').trans (length_padded hn').symm),
      ih hm' hn', List.compare_cons_cons,
      compare_digitChar _ (Nat.mod_lt m (by decide)) _ (Nat.mod_lt n (by decide)),
      compare_div_mod (show 0 < 10 by decide) m n]
    exact congrArg _ Ordering.then_eq

/-- Numbers of one width compare digit by digit, before whatever follows them. -/
theorem compare_padded_append (hm : m < 10 ^ (width + 1)) (hn : n < 10 ^ (width + 1))
    (rest others : List Char) :
    compare (padded (width + 1) m ++ rest) (padded (width + 1) n ++ others) =
      (compare m n).then (compare rest others) := by
  rw [Text.compare_append ((length_padded hm).trans (length_padded hn).symm), compare_padded hm hn]

/-- Reading a count of digits splits off the digits of a number below that power of ten. -/
theorem fixedDigits?_eq_some_iff {cs rest : List Char} :
    fixedDigits? (width + 1) cs = some (n, rest) ↔
      n < 10 ^ (width + 1) ∧ cs = padded (width + 1) n ++ rest := by
  simp only [fixedDigits?, List.all_eq_true, Option.ite_none_right_eq_some,
    Option.some.injEq, Prod.mk.injEq]
  constructor
  · rintro ⟨⟨hlength, hdigits⟩, hvalue, rfl⟩
    obtain ⟨hn, hpadded⟩ := eq_padded_iff.mpr ⟨hlength, hdigits, hvalue⟩
    exact ⟨hn, hpadded ▸ (List.take_append_drop _ cs).symm⟩
  · rintro ⟨hn, rfl⟩
    obtain ⟨hlength, hdigits, hvalue⟩ := eq_padded_iff.mp ⟨hn, rfl⟩
    rw [List.take_left' hlength, List.drop_left' hlength]
    exact ⟨⟨hlength, hdigits⟩, hvalue, rfl⟩

end Instant

end DocQuery
