import DocQuery.Proofs.Text.Lowercase
import DocQuery.Store.Evaluation

namespace DocQuery

open Text (ChangesSigma)

namespace Operator

/-- The operators on texts that tell capitals from small letters. -/
def cased : List Operator := [contains, startsWith, endsWith]

/-- The operator that does the same with all letters made small. -/
def caseless : Operator → Operator
  | contains => icontains
  | startsWith => istartsWith
  | endsWith => iendsWith
  | op => op

/-- Whether an operator looks for its text between these beginnings and ends of the stored one. -/
def LooksBetween (op : Operator) (before after : List Char) : Prop :=
  (op = startsWith → before = []) ∧ (op = endsWith → after = [])

variable {op : Operator}

theorem eq_of_mem_cased (hop : op ∈ cased) :
    op = contains ∨ op = startsWith ∨ op = endsWith := by
  simpa [cased] using hop

/-- A text is found where it stands between two others. -/
theorem textHolds_iff (hop : op ∈ cased) (stored needle : String) :
    op.textHolds stored needle = true ↔ ∃ before after,
      op.LooksBetween before after ∧ stored.toList = before ++ needle.toList ++ after := by
  rcases eq_of_mem_cased hop with rfl | rfl | rfl
  · simp only [textHolds, Text.occursIn_iff, LooksBetween, reduceCtorEq, false_implies, true_and]
    exact exists₂_congr fun _ _ => eq_comm
  · simp only [textHolds, decide_eq_true_eq, LooksBetween, reduceCtorEq, false_implies,
      and_true, true_implies]
    constructor
    · rintro ⟨after, hafter⟩
      exact ⟨[], after, rfl, hafter.symm⟩
    · rintro ⟨before, after, rfl, hstored⟩
      exact ⟨after, hstored.symm⟩
  · simp only [textHolds, decide_eq_true_eq, LooksBetween, reduceCtorEq, false_implies,
      true_and, true_implies]
    constructor
    · rintro ⟨before, hbefore⟩
      exact ⟨before, [], rfl, by rw [← hbefore, List.append_nil]⟩
    · rintro ⟨before, after, rfl, hstored⟩
      exact ⟨before, by rw [hstored, List.append_nil]⟩

variable {stored needle : String} {before after : List Char}

/-- An operator that looks in one place only finds the text there if and only if it keeps its small
    letters. -/
theorem textHolds_caseless_iff (hop : op ∈ cased) (hone : op ≠ contains)
    (hplace : op.LooksBetween before after)
    (hstored : stored.toList = before ++ needle.toList ++ after) :
    op.caseless.textHolds stored needle = true ↔ ¬ ChangesSigma before needle.toList after := by
  rcases eq_of_mem_cased hop with rfl | rfl | rfl
  · exact absurd rfl hone
  · obtain rfl := hplace.1 rfl
    simp only [caseless, textHolds, decide_eq_true_eq, Text.lowercase,
      String.toList_ofList, hstored]
    exact Text.isPrefix_lowercaseAfter_iff
  · obtain rfl := hplace.2 rfl
    rw [List.append_nil] at hstored
    simp only [caseless, textHolds, decide_eq_true_eq, Text.lowercase,
      String.toList_ofList, hstored]
    exact Text.isSuffix_lowercaseAfter_iff

/-- A text that keeps its small letters is found in small letters where it is found as it is. -/
theorem textHolds_caseless (hop : op ∈ cased) (hplace : op.LooksBetween before after)
    (hstored : stored.toList = before ++ needle.toList ++ after)
    (hsame : ¬ ChangesSigma before needle.toList after) :
    op.caseless.textHolds stored needle = true := by
  by_cases hcontains : op = contains
  · subst hcontains
    simp only [caseless, textHolds, Text.occursIn_iff, Text.lowercase,
      String.toList_ofList, hstored]
    exact Text.isInfix_lowercaseAfter hsame
  · exact (textHolds_caseless_iff hop hcontains hplace hstored).mpr hsame

/-- An element of an array that is meant by a literal is also meant without regard to case. -/
theorem elementHolds_caseless {element : Json} {value : Literal}
    (hholds : contains.elementHolds element value = true) :
    icontains.elementHolds element value = true := by
  cases element with
  | null | bool _ | num _ | arr _ | obj _ => exact hholds
  | str s =>
    have hequals : value.equals (.str s) = true := hholds
    cases value with
    | null | list _ => cases hequals
    | bool _ | num _ | text _ =>
      have htext := beq_iff_eq.mp hequals
      simp [elementHolds, htext]

/-- A stored text is tested as a text if the literal has one. -/
theorem holds_str (hop : op ∈ cased ∨ op ∈ cased.map caseless) (stored : String)
    (value : Literal) :
    op.holds (some (.str stored)) value = value.asText.any (op.textHolds stored) := by
  have hop : op ∈ cased ++ cased.map caseless := List.mem_append.mpr hop
  simp only [cased, caseless, List.map_cons, List.map_nil, List.cons_append,
    List.nil_append, List.mem_cons, List.not_mem_nil, or_false] at hop
  rcases hop with rfl | rfl | rfl | rfl | rfl | rfl <;> rfl

private theorem holds_caseless_str (hop : op ∈ cased) (stored : String) (value : Literal) :
    op.caseless.holds (some (.str stored)) value =
      value.asText.any (op.caseless.textHolds stored) :=
  holds_str (.inr (List.mem_map_of_mem hop)) stored value

/-- Of no other stored values does regard to case make a test hold that does not hold without it. -/
theorem holds_caseless_of_ne_str {stored : Option Json} {value : Literal} (hop : op ∈ cased)
    (hstored : ∀ s, stored ≠ some (.str s)) (hholds : op.holds stored value = true) :
    op.caseless.holds stored value = true := by
  match stored with
  | none | some .null | some (.bool _) | some (.num _) | some (.obj _) =>
    rcases eq_of_mem_cased hop with rfl | rfl | rfl <;> cases hholds
  | some (.str s) => exact absurd rfl (hstored s)
  | some (.arr elements) =>
    rcases eq_of_mem_cased hop with rfl | rfl | rfl
    · obtain ⟨element, helement, hmeant⟩ := List.any_eq_true.mp hholds
      exact List.any_eq_true.mpr ⟨element, helement, elementHolds_caseless hmeant⟩
    · cases hholds
    · cases hholds

end Operator

namespace Predicate

variable {d : Document} {field : String} {op : Operator} {value : Literal}

/-- A test that tells capitals from small letters, and the test that does not. What the first holds
    of the second holds of, except for stored texts in which, wherever the operator finds the text
    of the literal, a capital sigma of it ends a word in one of the two and not in the other.
    Literals without a capital sigma are none of these. At the start and the end of a text the
    second test fails of all exceptions. -/
theorem accepts_caseless_of_accepts (hop : op ∈ Operator.cased) :
    (accepts d (.test field op value) = true →
      accepts d (.test field op.caseless value) = true ∨
      ∃ stored needle, d.field? field = some (.str stored) ∧ value.asText = some needle ∧
        'Σ' ∈ needle.toList ∧
        ∀ before after, op.LooksBetween before after →
          stored.toList = before ++ needle.toList ++ after →
          ChangesSigma before needle.toList after) ∧
    ∀ stored needle before after, d.field? field = some (.str stored) →
      value.asText = some needle →
      op ≠ .contains → op.LooksBetween before after →
      stored.toList = before ++ needle.toList ++ after →
        (accepts d (.test field op.caseless value) = true ↔
          ¬ ChangesSigma before needle.toList after) := by
  simp only [accepts]
  constructor
  · intro hholds
    by_cases hstr : ∃ stored, d.field? field = some (.str stored)
    · obtain ⟨stored, hstored⟩ := hstr
      rw [hstored, Operator.holds_str (.inl hop), Option.any_eq_true] at hholds
      obtain ⟨needle, hneedle, hfound⟩ := hholds
      obtain ⟨before, after, hplace, hsplit⟩ :=
        (Operator.textHolds_iff hop stored needle).mp hfound
      rw [hstored, Operator.holds_caseless_str hop, hneedle]
      refine or_iff_not_imp_left.mpr fun hnot => ?_
      have hchanges : ∀ before after, op.LooksBetween before after →
          stored.toList = before ++ needle.toList ++ after →
          ChangesSigma before needle.toList after :=
        fun before after hplace hsplit => Decidable.byContradiction fun hsame =>
          hnot (Operator.textHolds_caseless hop hplace hsplit hsame)
      refine ⟨stored, needle, rfl, rfl, Decidable.byContradiction fun hsigma => ?_, hchanges⟩
      exact Text.not_changesSigma_of_not_mem hsigma (hchanges before after hplace hsplit)
    · exact .inl (Operator.holds_caseless_of_ne_str hop (not_exists.mp hstr) hholds)
  · intro stored needle before after hstored hneedle hone hplace hsplit
    rw [hstored, Operator.holds_caseless_str hop, hneedle]
    exact Operator.textHolds_caseless_iff hop hone hplace hsplit

/-- A post with a title in Greek capitals. -/
def greekPost : Document :=
  ⟨"p1", "posts", [("title", .str "ΟΔΥΣΣΕΑΣ")], .epoch, .epoch⟩

/-- Sigmas inside of the word are inside of its beginning too. -/
theorem accepts_istartsWith_greekPost :
    accepts greekPost (.test "title" .startsWith (.text "ΟΔΥΣΣΕ")) = true ∧
    ¬ ChangesSigma [] "ΟΔΥΣΣΕ".toList "ΑΣ".toList ∧
    accepts greekPost (.test "title" .istartsWith (.text "ΟΔΥΣΣΕ")) = true := by
  have hsame : ¬ ChangesSigma [] "ΟΔΥΣΣΕ".toList "ΑΣ".toList := by decide +kernel
  have hcaseless :=
    (@accepts_caseless_of_accepts greekPost "title" .startsWith
      (.text "ΟΔΥΣΣΕ") (by decide)).2
    "ΟΔΥΣΣΕΑΣ" "ΟΔΥΣΣΕ" [] "ΑΣ".toList rfl rfl (by decide)
      ⟨fun _ => rfl, nofun⟩ (by decide +kernel)
  exact ⟨by decide +kernel, hsame, hcaseless.mpr hsame⟩

/-- A sigma ends the beginning of a word but not the word, and one that ends the word ends none
    alone. -/
theorem not_accepts_icontains_greekPost :
    accepts greekPost (.test "title" .contains (.text "ΟΔΥΣ")) = true ∧
    accepts greekPost (.test "title" .icontains (.text "ΟΔΥΣ")) = false ∧
    accepts greekPost (.test "title" .startsWith (.text "ΟΔΥΣ")) = true ∧
    accepts greekPost (.test "title" .istartsWith (.text "ΟΔΥΣ")) = false ∧
    accepts greekPost (.test "title" .endsWith (.text "Σ")) = true ∧
    accepts greekPost (.test "title" .iendsWith (.text "Σ")) = false := by
  decide +kernel

end Predicate

end DocQuery
