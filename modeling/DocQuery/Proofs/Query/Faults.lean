import Mathlib.Algebra.Group.Nat.Defs
import DocQuery.Proofs.Filter.Faults
import DocQuery.Query.Params

namespace DocQuery

namespace Chain

/-- What is wrong with a chain: a relation in it is empty. -/
inductive Fault (raw : String) : RequestError → Prop where
  | badChain (empty : "" ∈ Text.split '.' (Text.trim raw)) : Fault raw (.badChain raw)

/-- A text is refused as a chain for its fault, and for nothing else. -/
theorem parse_eq_error_iff {raw : String} {e : RequestError} :
    parse raw = .error e ↔ Fault raw e := by
  unfold parse
  constructor
  · intro herror
    simp only at herror
    split at herror
    · next hempty =>
      cases herror
      exact .badChain hempty
    · cases herror
  · rintro ⟨hempty⟩
    exact if_pos hempty

/-- A list of chains is refused for the first fault among its items. -/
theorem parseList_eq_error_iff {raw : String} {e : RequestError} :
    parseList raw = .error e ↔ IsFirstFault Fault (Text.commaItems raw) e := by
  simp only [parseList, mapM_eq_error_iff, parse_eq_error_iff]

end Chain

namespace Params

/-- Whether a text is that of a count of 64 bits: digits, with blanks around them or a plus sign in
    front or not. -/
inductive IsCount (raw : String) : Nat → Prop where
  | digits {digits : List Char} (nonempty : digits ≠ []) (digit : ∀ c ∈ digits, c.isDigit)
      (text : (Text.trim raw).toList = digits ∨ (Text.trim raw).toList = '+' :: digits)
      (small : Decimal.ofDigits digits < 2 ^ 64) : IsCount raw (Decimal.ofDigits digits)

end Params

namespace ReservedKey

/-- What is wrong with the value of a reserved key. -/
inductive Fault : ReservedKey → (raw : String) → RequestError → Prop where
  | chain {raw : String} {cause : RequestError}
      (first : IsFirstFault Chain.Fault (Text.commaItems raw) cause) : Fault .populate raw cause
  | selection {raw : String} (notAll : Text.trim raw ≠ "*")
      (empty : ∀ piece ∈ Text.split ',' raw, Text.trim piece = "") :
      Fault .select raw .emptySelection
  | field {raw : String} (empty : Text.trim raw = "" ∨ Text.trim raw = "-") :
      Fault .sort raw .emptySort
  | direction {raw : String} (unknown : Text.asciiLowercase raw ∉ ["asc", "desc"]) :
      Fault .order raw (.badOrder raw)
  | count {key : ReservedKey} (counts : key ∈ [.limit, .offset, .page]) {raw : String}
      (none : ∀ n, ¬ Params.IsCount raw n) : Fault key raw (.badCount key.word raw)
  | pageZero {raw : String} (zero : Params.IsCount raw 0) : Fault .page raw .pageZero
  | flag {raw : String}
      (unknown : Text.asciiLowercase (Text.trim raw) ∉ ["true", "1", "false", "0"]) :
      Fault .count raw (.badFlag raw)

/-- Reserved keys are told by their words alone. -/
theorem ofWord?_eq_some_iff {word : String} {key : ReservedKey} :
    ofWord? word = some key ↔ word = key.word := by
  constructor
  · intro hfound
    have hword := List.find?_some hfound
    exact (of_decide_eq_true hword).symm
  · rintro rfl
    cases key <;> decide

/-- No two reserved keys share a word. -/
theorem word_inj {key other : ReservedKey} : key.word = other.word ↔ key = other := by
  rw [← ofWord?_eq_some_iff, ofWord?_eq_some_iff.mpr rfl, Option.some.injEq]

theorem ofWord?_eq_none_iff {word : String} :
    ofWord? word = none ↔ ∀ key : ReservedKey, word ≠ key.word := by
  simp only [Option.eq_none_iff_forall_ne_some, ne_eq, ofWord?_eq_some_iff]

end ReservedKey

namespace Params

/-- What is wrong with a text pair. -/
inductive Fault (pair : String × String) : RequestError → Prop where
  | reserved {key : ReservedKey} (word : pair.1 = key.word) {cause : RequestError}
      (fault : key.Fault pair.2 cause) : Fault pair cause
  | clause (free : ∀ key : ReservedKey, pair.1 ≠ key.word) {cause : RequestError}
      (fault : Clause.Fault pair.1 pair.2 cause) : Fault pair cause

/-- The digits of a count are what is left of the text without blanks around it and a plus sign in
    front. -/
theorem parseCount_cases (key : ReservedKey) (raw : String) : ∃ digits : List Char,
    ((Text.trim raw).toList = '+' :: digits ∨
      (Text.trim raw).toList = digits ∧ ∀ rest, digits ≠ '+' :: rest) ∧
    (parseCount key raw = .ok (Decimal.ofDigits digits) ∧
        digits ≠ [] ∧ (∀ c ∈ digits, c.isDigit) ∧ Decimal.ofDigits digits < 2 ^ 64 ∨
      parseCount key raw = .error (.badCount key.word raw) ∧
        ¬ (digits ≠ [] ∧ (∀ c ∈ digits, c.isDigit) ∧
          Decimal.ofDigits digits < 2 ^ 64)) := by
  have hmax : Config.maxCount + 1 = 2 ^ 64 := rfl
  have hrefused : ∀ digits : List Char,
      (digits.isEmpty || !digits.all Char.isDigit ||
        decide (Config.maxCount < Decimal.ofDigits digits)) = true ↔
        ¬ (digits ≠ [] ∧ (∀ c ∈ digits, c.isDigit) ∧
          Decimal.ofDigits digits < 2 ^ 64) := by
    intro digits
    rw [← not_iff_not, not_not]
    simp only [Bool.or_eq_true, List.isEmpty_iff, Bool.not_eq_true', decide_eq_true_eq, not_or,
      Bool.not_eq_false, List.all_eq_true, Nat.not_lt, and_assoc]
    exact and_congr_right fun _ => and_congr_right fun _ => by omega
  unfold parseCount
  by_cases hplus : ∃ digits, (Text.trim raw).toList = '+' :: digits
  · obtain ⟨digits, hdigits⟩ := hplus
    refine ⟨digits, .inl hdigits, ?_⟩
    simp only [hdigits]
    split
    · next hbad => exact .inr ⟨rfl, (hrefused digits).mp hbad⟩
    · next hgood => exact .inl ⟨rfl, not_not.mp (mt (hrefused digits).mpr hgood)⟩
  · refine ⟨_, .inr ⟨rfl, not_exists.mp hplus⟩, ?_⟩
    simp only
    split
    · next digits hdigits => exact absurd ⟨digits, hdigits⟩ hplus
    · split
      · next hbad => exact .inr ⟨rfl, (hrefused _).mp hbad⟩
      · next hgood => exact .inl ⟨rfl, not_not.mp (mt (hrefused _).mpr hgood)⟩

/-- What is read as a count is what spells one. -/
theorem parseCount_eq_ok_iff {key : ReservedKey} {raw : String} {n : Nat} :
    parseCount key raw = .ok n ↔ IsCount raw n := by
  obtain ⟨digits, htext, hread⟩ := parseCount_cases key raw
  constructor
  · intro hok
    rcases hread with ⟨hread, hne, hdigit, hsmall⟩ | ⟨hread, -⟩
    · rw [hread] at hok
      cases hok
      exact .digits hne hdigit (htext.symm.imp_left And.left) hsmall
    · rw [hread] at hok
      cases hok
  · rintro ⟨hne, hdigit, hcount, hsmall⟩
    have hsame : ∀ other, (∀ c ∈ other, c.isDigit) →
        ((Text.trim raw).toList = other ∨ (Text.trim raw).toList = '+' :: other) →
        digits = other := by
      -- a plus sign is no digit
      rintro other hother (hwhole | hplus)
      · rcases htext with hsign | ⟨hdigits, -⟩
        · rw [hwhole] at hsign
          have hmem : '+' ∈ other := hsign ▸ List.mem_cons_self
          exact absurd (hother _ hmem) (by decide)
        · exact hdigits.symm.trans hwhole
      · rcases htext with hsign | ⟨hdigits, hfree⟩
        · exact (List.cons.inj (hsign.symm.trans hplus)).2
        · exact absurd (hdigits.symm.trans hplus) (hfree other)
    obtain rfl := hsame _ hdigit hcount
    exact (hread.resolve_right fun hbad => hbad.2 ⟨hne, hdigit, hsmall⟩).1

private theorem parseCount_eq_error_iff {key : ReservedKey} {raw : String} {e : RequestError} :
    parseCount key raw = .error e ↔ e = .badCount key.word raw ∧ ∀ n, ¬ IsCount raw n := by
  obtain ⟨digits, -, ⟨hread, -⟩ | ⟨hread, -⟩⟩ := parseCount_cases key raw
  · rw [hread]
    exact iff_of_false (fun herror => by cases herror) fun hnone =>
      hnone.2 _ (parseCount_eq_ok_iff.mp hread)
  · rw [hread, Except.error.injEq, eq_comm]
    refine (and_iff_left fun n hcount => ?_).symm
    rw [parseCount_eq_ok_iff.mpr hcount] at hread
    cases hread

private theorem commaItems_eq_nil_iff {raw : String} :
    Text.commaItems raw = [] ↔ ∀ piece ∈ Text.split ',' raw, Text.trim piece = "" := by
  simp [Text.commaItems, List.filter_eq_nil_iff]

/-- A selection is refused if it selects nothing, and a star selects all. -/
theorem parseSelect_eq_error_iff {raw : String} {e : RequestError} : parseSelect raw = .error e ↔
    e = .emptySelection ∧ Text.trim raw ≠ "*" ∧ ∀ piece ∈ Text.split ',' raw,
      Text.trim piece = "" := by
  unfold parseSelect
  constructor
  · intro herror
    split at herror
    · cases herror
    · next hall =>
      split at herror
      · next hnil =>
        cases herror
        exact ⟨rfl, hall, commaItems_eq_nil_iff.mp hnil⟩
      · cases herror
  · rintro ⟨rfl, hall, hempty⟩
    rw [if_neg hall, commaItems_eq_nil_iff.mpr hempty]

/-- A field to order by is refused if nothing is left of it without its hyphen. -/
theorem parseSort_eq_error_iff {raw : String} {e : RequestError} :
    parseSort raw = .error e ↔ e = .emptySort ∧
      (Text.trim raw = "" ∨ Text.trim raw = "-") := by
  unfold parseSort
  constructor
  · intro herror
    cases hstart : Text.dropStart? "-" (Text.trim raw) with
    | none =>
      simp only [hstart] at herror
      split at herror
      · next hempty =>
        cases herror
        exact ⟨rfl, .inl hempty⟩
      · cases herror
    | some field =>
      simp only [hstart] at herror
      split at herror
      · next hempty =>
        cases herror
        subst hempty
        exact ⟨rfl, .inr (Text.dropStart?_eq_some_iff.mp hstart)⟩
      · cases herror
  · rintro ⟨rfl, hempty | hhyphen⟩
    · rw [hempty]
      rfl
    · rw [hhyphen]
      rfl

private theorem parseDirection_eq_error_iff {raw : String} {e : RequestError} :
    Direction.parse raw = .error e ↔ e = .badOrder raw ∧
      Text.asciiLowercase raw ∉ ["asc", "desc"] := by
  have hwords : Direction.ascending.word = "asc" ∧
      Direction.descending.word = "desc" := ⟨rfl, rfl⟩
  unfold Direction.parse
  simp only [hwords, List.mem_cons, List.not_mem_nil, or_false, not_or]
  split
  · next hasc => simp [hasc]
  · next hasc =>
    split
    · next hdesc => simp [hdesc]
    · next hdesc => simp [hasc, hdesc, eq_comm]

private theorem parseFlag_eq_error_iff {raw : String} {e : RequestError} :
    parseFlag raw = .error e ↔
    e = .badFlag raw ∧ Text.asciiLowercase (Text.trim raw) ∉ ["true", "1", "false", "0"] := by
  unfold parseFlag
  simp only [List.mem_cons, List.not_mem_nil, or_false, not_or]
  split
  · next htrue => rcases htrue with htrue | htrue <;> simp [htrue]
  · next htrue =>
    split
    · next hfalse => rcases hfalse with hfalse | hfalse <;> simp [hfalse]
    · next hfalse => simp [not_or.mp htrue, not_or.mp hfalse, eq_comm]

/-- Whatever was taken in before, the value of a reserved key is refused for its own fault. -/
theorem assign_eq_error_iff {key : ReservedKey} {raw : String} {p : Params} {e : RequestError} :
    p.assign key raw = .error e ↔ key.Fault raw e := by
  constructor
  · intro herror
    cases key with
    | populate => exact .chain (Chain.parseList_eq_error_iff.mp (bind_pure_eq_error_iff.mp herror))
    | select =>
      obtain ⟨rfl, hall, hempty⟩ :=
        parseSelect_eq_error_iff.mp (bind_pure_eq_error_iff.mp herror)
      exact .selection hall hempty
    | sort =>
      obtain ⟨rfl, hempty⟩ := parseSort_eq_error_iff.mp (bind_pure_eq_error_iff.mp herror)
      exact .field hempty
    | order =>
      obtain ⟨rfl, hunknown⟩ :=
        parseDirection_eq_error_iff.mp (bind_pure_eq_error_iff.mp herror)
      exact .direction hunknown
    | limit | offset =>
      obtain ⟨rfl, hnone⟩ := parseCount_eq_error_iff.mp (bind_pure_eq_error_iff.mp herror)
      exact .count (by decide) hnone
    | page =>
      rcases bind_eq_error_iff.mp herror with hcount | ⟨n, hcount, hzero⟩
      · obtain ⟨rfl, hnone⟩ := parseCount_eq_error_iff.mp hcount
        exact .count (by decide) hnone
      · split at hzero
        · next hn =>
          cases hzero
          exact .pageZero (hn ▸ parseCount_eq_ok_iff.mp hcount)
        · cases hzero
    | count =>
      obtain ⟨rfl, hunknown⟩ := parseFlag_eq_error_iff.mp (bind_pure_eq_error_iff.mp herror)
      exact .flag hunknown
  · intro hfault
    cases hfault with
    | chain hfirst => exact bind_pure_eq_error_iff.mpr (Chain.parseList_eq_error_iff.mpr hfirst)
    | selection hall hempty =>
      exact bind_pure_eq_error_iff.mpr (parseSelect_eq_error_iff.mpr ⟨rfl, hall, hempty⟩)
    | field hempty =>
      exact bind_pure_eq_error_iff.mpr (parseSort_eq_error_iff.mpr ⟨rfl, hempty⟩)
    | direction hunknown =>
      exact bind_pure_eq_error_iff.mpr (parseDirection_eq_error_iff.mpr ⟨rfl, hunknown⟩)
    | count hcounts hnone =>
      have hcount : parseCount key raw = .error (.badCount key.word raw) :=
        parseCount_eq_error_iff.mpr ⟨rfl, hnone⟩
      simp only [List.mem_cons, List.not_mem_nil, or_false] at hcounts
      rcases hcounts with rfl | rfl | rfl
      · exact bind_pure_eq_error_iff.mpr hcount
      · exact bind_pure_eq_error_iff.mpr hcount
      · exact bind_eq_error_iff.mpr (.inl hcount)
    | pageZero hzero =>
      exact bind_eq_error_iff.mpr (.inr ⟨0, parseCount_eq_ok_iff.mpr hzero, rfl⟩)
    | flag hunknown =>
      exact bind_pure_eq_error_iff.mpr (parseFlag_eq_error_iff.mpr ⟨rfl, hunknown⟩)

/-- Whatever was read before it, a pair is refused for its own faults. -/
theorem addPair_eq_error_iff {p : Params} {pair : String × String} {e : RequestError} :
    p.addPair pair = .error e ↔ Fault pair e := by
  unfold addPair
  cases hword : ReservedKey.ofWord? pair.1 with
  | some key =>
    have hkey := ReservedKey.ofWord?_eq_some_iff.mp hword
    simp only [assign_eq_error_iff]
    constructor
    · exact fun hfault => .reserved hkey hfault
    · intro hfault
      cases hfault with
      | @reserved key' hkey' _ hfault =>
        have hsame := hword.symm.trans (ReservedKey.ofWord?_eq_some_iff.mpr hkey')
        cases hsame
        exact hfault
      | clause hfree => exact absurd hkey (hfree key)
  | none =>
    have hfree := ReservedKey.ofWord?_eq_none_iff.mp hword
    simp only [addClause, bind_pure_eq_error_iff, Clause.parse_text_eq_error_iff]
    constructor
    · exact fun hfault => .clause hfree hfault
    · intro hfault
      cases hfault with
      | reserved hkey => exact absurd hkey (hfree _)
      | clause _ hfault => exact hfault

/-- Text pairs are refused for the fault of the first pair that has one, and read if none has. -/
theorem parse_eq_error_iff {pairs : List (String × String)} {e : RequestError} :
    parse pairs = .error e ↔ IsFirstFault Fault pairs e :=
  foldlM_eq_error_iff (f := addPair) fun _ _ _ => addPair_eq_error_iff

/-- Pairs are read exactly if none of them has a fault. -/
theorem exists_parse_iff {pairs : List (String × String)} :
    (∃ p, parse pairs = .ok p) ↔ ∀ pair ∈ pairs, ∀ cause, ¬ Fault pair cause := by
  rw [exists_eq_ok_iff, ← not_exists]
  simp only [parse_eq_error_iff, exists_isFirstFault_iff]
  simp only [not_exists, not_and]

end Params

end DocQuery
