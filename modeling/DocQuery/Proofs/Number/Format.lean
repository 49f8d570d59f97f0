import DocQuery.Json.Basic
import DocQuery.Proofs.Number.Shortest

namespace DocQuery

namespace Decimal

/-- What may follow the digits of a numeral: nothing, or an exponent. -/
inductive SpellsExponent : List Char → Int → Prop
  | absent : SpellsExponent [] 0
  | unsigned (n : Nat) : SpellsExponent ('e' :: digits n) n
  | plus (n : Nat) : SpellsExponent ('e' :: '+' :: digits n) n
  | minus (n : Nat) : SpellsExponent ('e' :: '-' :: digits n) (-n)

private theorem digits_ne_nil (n : Nat) : digits n ≠ [] := Nat.toDigits_ne_nil

private theorem isEmpty_digits (n : Nat) : (digits n).isEmpty = false :=
  List.isEmpty_eq_false_iff.mpr (digits_ne_nil n)

private theorem all_digits (n : Nat) : (digits n).all Char.isDigit = true :=
  List.all_eq_true.mpr fun _ hc => isDigit_of_mem_digits hc

/-- A digit is no sign. -/
theorem ne_sign_of_isDigit {c : Char} (hc : c.isDigit = true) : c ≠ '-' ∧ c ≠ '+' := by
  constructor
  · rintro rfl
    cases hc
  · rintro rfl
    cases hc

private theorem exists_digits_eq_cons (n : Nat) :
    ∃ c rest, digits n = c :: rest ∧ c ≠ '-' ∧ c ≠ '+' := by
  obtain ⟨c, rest, hcons⟩ := List.exists_cons_of_ne_nil (digits_ne_nil n)
  exact ⟨c, rest, hcons,
    ne_sign_of_isDigit (isDigit_of_mem_digits (hcons ▸ List.mem_cons_self))⟩

section Reader

variable {ds whole fraction tail : List Char} {exponent : Int} (negative : Bool)

/-- The digits end where an exponent begins. -/
theorem SpellsExponent.span (htail : SpellsExponent tail exponent)
    (hds : ∀ c ∈ ds, c.isDigit = true) :
    (ds ++ tail).takeWhile Char.isDigit = ds ∧ (ds ++ tail).dropWhile Char.isDigit = tail := by
  rw [List.takeWhile_append_of_pos hds, List.dropWhile_append_of_pos hds]
  cases htail <;> exact ⟨List.append_nil ds, rfl⟩

/-- The digits before a point end there. -/
theorem span_point (hwhole : ∀ c ∈ whole, c.isDigit = true) (rest : List Char) :
    (whole ++ '.' :: rest).takeWhile Char.isDigit = whole ∧
      (whole ++ '.' :: rest).dropWhile Char.isDigit = '.' :: rest := by
  have hpoint : '.'.isDigit = false := by decide
  rw [List.takeWhile_append_of_pos hwhole, List.dropWhile_append_of_pos hwhole, List.takeWhile_cons,
    List.dropWhile_cons, hpoint]
  exact ⟨List.append_nil whole, rfl⟩

/-- Every digit after the point lowers the exponent by one. -/
theorem readUnsigned?_point (hwhole : ∀ c ∈ whole, c.isDigit = true) (hne : whole ≠ [])
    (hfraction : ∀ c ∈ fraction, c.isDigit = true) (htail : SpellsExponent tail exponent) :
    readUnsigned? negative (whole ++ '.' :: (fraction ++ tail)) =
      some ⟨negative, ofDigits (whole ++ fraction), exponent - fraction.length⟩ := by
  obtain ⟨htake, hdrop⟩ := htail.span hfraction
  obtain ⟨htakeWhole, hdropWhole⟩ := span_point hwhole (fraction ++ tail)
  unfold readUnsigned?
  simp only [htakeWhole, hdropWhole, htake, hdrop]
  cases htail with
  | absent => simp [hne]
  | unsigned n =>
    obtain ⟨c, rest, hcons, hminus, hplus⟩ := exists_digits_eq_cons n
    have hall := all_digits n
    have hvalue := ofDigits_digits n
    rw [hcons] at hall hvalue
    simp [hne, hcons, hminus, hplus, hall, hvalue]
  | plus n => simp [hne, isEmpty_digits, all_digits, ofDigits_digits]
  | minus n => simp [hne, isEmpty_digits, all_digits, ofDigits_digits]

/-- A point without digits behind it may be left out. -/
theorem readUnsigned?_append_eq_point (hwhole : ∀ c ∈ whole, c.isDigit = true)
    (htail : SpellsExponent tail exponent) :
    readUnsigned? negative (whole ++ tail) = readUnsigned? negative (whole ++ '.' :: tail) := by
  obtain ⟨htake, hdrop⟩ := htail.span hwhole
  obtain ⟨htakePoint, hdropPoint⟩ := span_point hwhole tail
  obtain ⟨htakeTail, hdropTail⟩ := htail.span (List.forall_mem_nil _)
  rw [List.nil_append] at htakeTail hdropTail
  unfold readUnsigned?
  simp only [htake, hdrop, htakePoint, hdropPoint, htakeTail, hdropTail]
  cases htail <;> rfl

/-- Digits without a point spell an integer. -/
theorem readUnsigned?_append (hwhole : ∀ c ∈ whole, c.isDigit = true) (hne : whole ≠ [])
    (htail : SpellsExponent tail exponent) :
    readUnsigned? negative (whole ++ tail) = some ⟨negative, ofDigits whole, exponent⟩ := by
  have hread := readUnsigned?_point negative hwhole hne (List.forall_mem_nil _) htail
  rwa [List.nil_append, List.append_nil, List.length_nil, Int.natCast_zero, Int.sub_zero,
    ← readUnsigned?_append_eq_point negative hwhole htail] at hread

/-- What reads without a sign reads with one. -/
theorem read?_signed {cs : List Char} {t : Decimal} (hread : readUnsigned? negative cs = some t) :
    read? (if negative then '-' :: cs else cs) = some t := by
  cases negative with
  | true => exact hread
  | false =>
    unfold read?
    split
    · next rest heq =>
      cases heq
      cases hread
    · next rest heq =>
      cases heq
      cases hread
    · exact hread

end Reader

end Decimal

namespace NumberFormat

open Decimal

variable (format : NumberFormat) (negative : Bool) {ds : List Char}

/-- The exponent counts from the first digit, and that of a decimal from the last. -/
theorem exists_read_writePositional (hds : ∀ c ∈ ds, c.isDigit = true) (hne : ds ≠ [])
    (exponent : Int) :
    ∃ t, readUnsigned? negative (format.writePositional ds exponent) = some t ∧
      t.toDouble = toDouble ⟨negative, ofDigits ds, exponent + 1 - ds.length⟩ := by
  have hzeros : ∀ count, ∀ c ∈ List.replicate count '0', c.isDigit = true := by
    intro count c hc
    rw [List.eq_of_mem_replicate hc]
    rfl
  unfold writePositional
  dsimp only
  split
  · next hnegative =>
    have hread := readUnsigned?_point negative (hzeros 1) (by decide)
      (List.forall_mem_append.mpr ⟨hzeros (-exponent - 1).toNat, hds⟩) .absent
    rw [List.append_nil] at hread
    refine ⟨_, hread, ?_⟩
    rw [← List.append_assoc, List.replicate_append_replicate,
      ofDigits_zeros_append, List.length_append, List.length_replicate]
    congr 2
    omega
  · split
    · next hfits =>
      have hwhole := List.forall_mem_append.mpr ⟨hds, hzeros (exponent.toNat + 1 - ds.length)⟩
      have hwholeNe : ds ++ List.replicate
          (exponent.toNat + 1 - ds.length) '0' ≠ [] := by simp [hne]
      cases format.pointZero with
      | true =>
        refine ⟨_, readUnsigned?_point negative hwhole hwholeNe (hzeros 1) .absent, ?_⟩
        rw [List.append_assoc, List.replicate_append_replicate,
          ofDigits_append_zeros, toDouble_mul_pow, List.length_replicate]
        congr 2
        omega
      | false =>
        refine ⟨_, readUnsigned?_append negative hwhole hwholeNe .absent, ?_⟩
        rw [ofDigits_append_zeros, toDouble_mul_pow]
        congr 2
        omega
    · next hlong =>
      have htake : ∀ c ∈ ds.take (exponent.toNat + 1), c.isDigit = true :=
        fun c hc => hds c (List.mem_of_mem_take hc)
      have hdrop : ∀ c ∈ ds.drop (exponent.toNat + 1), c.isDigit = true :=
        fun c hc => hds c (List.mem_of_mem_drop hc)
      have hread := readUnsigned?_point negative htake (by simp [hne]) hdrop .absent
      rw [List.append_nil] at hread
      refine ⟨_, hread, ?_⟩
      rw [List.take_append_drop, List.length_drop]
      congr 2
      omega

private theorem spellsExponent_writeExponential (exponent : Int) :
    SpellsExponent
      ('e' :: ((if exponent < 0 then ['-'] else if format.plusSign then ['+'] else []) ++
      digits exponent.natAbs)) exponent := by
  by_cases hnegative : exponent < 0
  · have hvalue : exponent = -(exponent.natAbs : Int) := by omega
    have hminus := SpellsExponent.minus exponent.natAbs
    rw [← hvalue] at hminus
    rwa [if_pos hnegative]
  · have hvalue : exponent = (exponent.natAbs : Int) := by omega
    have hplus := SpellsExponent.plus exponent.natAbs
    have hunsigned := SpellsExponent.unsigned exponent.natAbs
    rw [← hvalue] at hplus hunsigned
    rw [if_neg hnegative]
    cases format.plusSign with
    | true => exact hplus
    | false => exact hunsigned

/-- Digits with an exponent are read as what they spell, one digit standing before the point. -/
theorem readUnsigned?_writeExponential (hds : ∀ c ∈ ds, c.isDigit = true) (hne : ds ≠ [])
    (exponent : Int) :
    readUnsigned? negative (format.writeExponential ds exponent) =
      some ⟨negative, ofDigits ds, exponent + 1 - ds.length⟩ := by
  have htail := spellsExponent_writeExponential format exponent
  unfold writeExponential
  match ds, hne with
  | [c], _ =>
    have hread := readUnsigned?_append negative hds (List.cons_ne_nil c []) htail
    simpa using hread
  | c :: r :: rest, _ =>
    rw [List.forall_mem_cons] at hds
    have hread :=
      readUnsigned?_point negative (List.forall_mem_singleton.mpr hds.1) (List.cons_ne_nil c [])
      hds.2 htail
    have hplace : exponent + 1 - ((c :: r :: rest).length : Int) =
        exponent - ((r :: rest).length : Int) := by
      simp only [List.length_cons]
      omega
    rw [hplace]
    simpa using hread

/-- A decimal written without its sign, with the digits around a point or with an exponent. -/
def writeUnsigned (t : Decimal) (inRange : Bool) : List Char :=
  let exponent := t.exponent + ((digits t.coefficient).length : Int) - 1
  if inRange then format.writePositional (digits t.coefficient) exponent
  else format.writeExponential (digits t.coefficient) exponent

/-- Either way of writing a decimal reads back as the same number. -/
theorem exists_read_writeUnsigned (t : Decimal) (inRange : Bool) :
    ∃ u, readUnsigned? t.negative (format.writeUnsigned t inRange) = some u ∧
      u.toDouble = t.toDouble := by
  have hds : ∀ c ∈ digits t.coefficient, c.isDigit = true :=
    fun _ hc => isDigit_of_mem_digits hc
  have hne := digits_ne_nil t.coefficient
  have hspelled : (⟨t.negative, ofDigits (digits t.coefficient),
      t.exponent + ((digits t.coefficient).length : Int) - 1 +
        1 - (digits t.coefficient).length⟩ : Decimal) = t := by
    rw [ofDigits_digits, Int.sub_add_cancel, Int.add_sub_cancel]
  cases inRange with
  | true =>
    obtain ⟨u, hread, hvalue⟩ := exists_read_writePositional format t.negative hds hne
      (t.exponent + ((digits t.coefficient).length : Int) - 1)
    exact ⟨u, hread, hspelled ▸ hvalue⟩
  | false =>
    have hread := readUnsigned?_writeExponential format t.negative hds hne
      (t.exponent + ((digits t.coefficient).length : Int) - 1)
    exact ⟨t, hread.trans (congrArg some hspelled), rfl⟩

private theorem exists_write_eq {d : Double} (hd : d.isFinite = true) :
    ∃ inRange, format.write d = String.ofList
      (if d.negative then '-' :: format.writeUnsigned (d.shortest format.tie) inRange
        else format.writeUnsigned (d.shortest format.tie) inRange) := by
  unfold write
  rw [Double.isNaN_of_isFinite hd, hd]
  exact ⟨_, rfl⟩

/-- The text of a finite number reads back as the number. -/
theorem read?_write {d : Double} (hd : d.isFinite = true) :
    Double.read? (format.write d) = some d := by
  obtain ⟨hvalue, hnegative⟩ := Double.toDouble_shortest hd format.tie
  obtain ⟨inRange, hwritten⟩ := exists_write_eq format hd
  obtain ⟨u, hread, hu⟩ := exists_read_writeUnsigned format (d.shortest format.tie) inRange
  rw [hvalue] at hu
  rw [hnegative] at hread
  rw [Double.read?, hwritten, String.toList_ofList, read?_signed d.negative hread]
  simp only [hu, hd, if_true]

end NumberFormat

namespace Number

/-- An integer of 64 bits is converted to a finite number. -/
theorem isFinite_ofInt {value : Int}
    (fits : -0x8000000000000000 ≤ value ∧ value < 0x10000000000000000) :
    (Double.ofInt value).isFinite = true := by
  have hunits : value.natAbs * Double.unitsPerOne < 2 * Double.fractionWeight * 2 ^ 1085 * 1 := by
    have hbound : 2 * Double.fractionWeight * 2 ^ 1085 * 1 =
        2 ^ 64 * Double.unitsPerOne := by decide +kernel
    rw [hbound]
    exact Nat.mul_lt_mul_of_pos_right (by omega) (by decide +kernel)
  have hmagnitude := Double.magnitude_ofRatio_le (decide (value < 0)) hunits
  exact decide_eq_true (Nat.lt_of_le_of_lt hmagnitude (by decide))

/-- No number of a document is an infinity or a NaN. -/
theorem isFinite_toDouble (n : Number) : n.toDouble.isFinite = true := by
  cases n with
  | int value fits => exact isFinite_ofInt fits
  | real value finite => exact finite

/-- A natural of few digits is converted as the quotient that it is. -/
theorem toDouble_natural (negative : Bool) {n : Nat} (hn : n < 10 ^ 400) :
    Decimal.toDouble ⟨negative, n, 0⟩ = Double.ofRatio negative n 1 := by
  have hlength := (Decimal.length_digits_le_iff (by decide)).mpr hn
  unfold Decimal.toDouble
  dsimp only
  split
  · next hsmall =>
    have hzero : n = 0 := hsmall.resolve_right (by omega)
    rw [hzero]
    exact (Double.ofRatio_eq_ofMagnitude (Nat.zero_mul _) negative).symm
  · rw [if_neg (by omega)]
    exact congrArg (Double.ofRatio negative · 1) (Nat.mul_one n)

/-- An integer of 64 bits is read from its digits as the number it is converted to. -/
theorem read?_intText {value : Int}
    (fits : -0x8000000000000000 ≤ value ∧ value < 0x10000000000000000) :
    Double.read? (intText value) = some (Double.ofInt value) := by
  have hread := Decimal.readUnsigned?_append (decide (value < 0))
    (fun _ hc => Decimal.isDigit_of_mem_digits hc) (Decimal.digits_ne_nil value.natAbs) .absent
  rw [List.append_nil, Decimal.ofDigits_digits] at hread
  have hsigned := Decimal.read?_signed (decide (value < 0)) hread
  simp only [decide_eq_true_eq] at hsigned
  have hvalue : Decimal.toDouble ⟨decide (value < 0), value.natAbs, 0⟩ = Double.ofInt value :=
    toDouble_natural _
      (Nat.lt_of_lt_of_le (show value.natAbs < 2 ^ 64 by omega) (by decide +kernel))
  rw [Double.read?, intText, String.toList_ofList, hsigned]
  simp only [hvalue, isFinite_ofInt fits, if_true]

/-- The text of a number reads back as the nearest binary64 number. -/
theorem read?_text (n : Number) : Double.read? n.text = some n.toDouble := by
  cases n with
  | int value fits => exact read?_intText fits
  | real value finite => exact jsonFormat.read?_write finite

end Number

end DocQuery
