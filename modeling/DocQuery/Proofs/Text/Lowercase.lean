import Mathlib.Data.List.TakeWhile
import DocQuery.Text.Lowercase

namespace DocQuery.Text

/-- The small forms of a piece of a text: of the characters between those before, given nearest
    first, and those after. -/
def lowercaseBetween (before : List Char) : List Char → List Char → List Char
  | [], _ => []
  | c :: rest, after =>
    lowercaseAt before c (rest ++ after) ++ lowercaseBetween (c :: before) rest after

/-- The two ways in which a capital sigma of a piece has another small form where the piece stands
    between other characters than where it stands alone. -/
inductive ChangesSigma (before piece after : List Char) : Prop where
  /-- It ends the last word of the piece, but the text goes on with a letter. -/
  | goesOn {first marks : List Char} (parts : piece = first ++ 'Σ' :: marks)
      (letter : startsCased first.reverse = true) (ignored : marks.all isCaseIgnorable = true)
      (next : startsCased after = true)
  /-- It ends a word of the text whose letters all stand before the piece. -/
  | endsWord {marks rest : List Char} (parts : piece = marks ++ 'Σ' :: rest)
      (ignored : marks.all isCaseIgnorable = true) (letter : startsCased before.reverse = true)
      (last : startsCased (rest ++ after) = false)

section Pieces

theorem lowercaseBetween_nil (before cs : List Char) :
    lowercaseBetween before cs [] = lowercaseAfter before cs := by
  induction cs generalizing before with
  | nil => rfl
  | cons c rest ih => rw [lowercaseBetween, lowercaseAfter, ih, List.append_nil]

/-- A text in small letters is its pieces in small letters, each where it stands. -/
theorem lowercaseAfter_append (before cs after : List Char) :
    lowercaseAfter before (cs ++ after) =
      lowercaseBetween before cs after ++ lowercaseAfter (cs.reverse ++ before) after := by
  induction cs generalizing before with
  | nil => rfl
  | cons c rest ih =>
    rw [List.cons_append, lowercaseAfter, lowercaseBetween, ih,
      List.append_assoc, List.reverse_cons, List.append_assoc, List.singleton_append]

/-- The small form of a character does not depend on what is around it, but for the sigma. -/
theorem lowercaseAt_of_ne {c : Char} (hc : c ≠ 'Σ') (before after before' after' : List Char) :
    lowercaseAt before c after = lowercaseAt before' c after' := by
  simp only [lowercaseAt, if_neg hc]

/-- Whether a capital sigma between others ends a word. -/
def endsWord (before after : List Char) : Bool := startsCased before && !startsCased after

private theorem lowercaseAt_sigma (before after : List Char) :
    lowercaseAt before 'Σ' after = [if endsWord before after then 'ς' else 'σ'] := rfl

private theorem lowercaseAt_sigma_eq_iff {before after before' after' : List Char} :
    lowercaseAt before 'Σ' after = lowercaseAt before' 'Σ' after' ↔
      endsWord before after = endsWord before' after' := by
  rw [lowercaseAt_sigma, lowercaseAt_sigma]
  cases endsWord before after <;> cases endsWord before' after' <;> decide

/-- Both small sigmas are one character. -/
theorem length_lowercaseAt (c : Char) (before after before' after' : List Char) :
    (lowercaseAt before c after).length = (lowercaseAt before' c after').length := by
  by_cases hc : c = 'Σ'
  · subst hc
    rfl
  · rw [lowercaseAt_of_ne hc]

/-- The number of small letters of a piece does not depend on where it stands. -/
theorem length_lowercaseBetween (cs before after before' after' : List Char) :
    (lowercaseBetween before cs after).length = (lowercaseBetween before' cs after').length := by
  induction cs generalizing before before' with
  | nil => rfl
  | cons c rest ih =>
    rw [lowercaseBetween, lowercaseBetween, List.length_append, List.length_append,
      length_lowercaseAt c before _ before' (rest ++ after'), ih _ (c :: before')]

end Pieces

section Sigma

private theorem startsCased_of_ignorable {cs : List Char} (hcs : cs.all isCaseIgnorable = true) :
    startsCased cs = false := by
  have hnil : cs.dropWhile isCaseIgnorable = [] :=
    List.dropWhile_eq_nil_iff.mpr (List.all_eq_true.mp hcs)
  rw [startsCased, hnil]

private theorem startsCased_append_of_ignorable {cs : List Char}
    (hcs : cs.all isCaseIgnorable = true) (rest : List Char) :
    startsCased (cs ++ rest) = startsCased rest := by
  rw [startsCased, startsCased, List.dropWhile_append_of_pos (List.all_eq_true.mp hcs)]

private theorem startsCased_append_of_not_ignorable {cs : List Char}
    (hcs : cs.all isCaseIgnorable = false) (rest : List Char) :
    startsCased (cs ++ rest) = startsCased cs := by
  obtain ⟨c, kept, hkept⟩ : ∃ c kept, cs.dropWhile isCaseIgnorable = c :: kept :=
    List.exists_cons_of_ne_nil fun hnil => Bool.eq_false_iff.mp hcs
      (List.all_eq_true.mpr (List.dropWhile_eq_nil_iff.mp hnil))
  have hmore : (cs ++ rest).dropWhile isCaseIgnorable = c :: kept ++ rest := by
    rw [List.dropWhile_append, hkept]
    rfl
  rw [startsCased, startsCased, hmore, hkept]
  rfl

/-- A sigma that ends a word in one place and not in the other is the last letter there is and
    stands before another one, or is the first letter and stands behind another one. -/
theorem endsWord_ne_iff {seen before rest after : List Char} :
    endsWord seen rest ≠ endsWord (seen ++ before) (rest ++ after) ↔
      startsCased seen = true ∧ rest.all isCaseIgnorable = true ∧ startsCased after = true ∨
      seen.all isCaseIgnorable = true ∧ startsCased before = true ∧
      startsCased (rest ++ after) = false := by
  unfold endsWord
  cases hseen : seen.all isCaseIgnorable with
  | true =>
    rw [startsCased_of_ignorable hseen, startsCased_append_of_ignorable hseen]
    simp
  | false =>
    rw [startsCased_append_of_not_ignorable hseen]
    cases hrest : rest.all isCaseIgnorable with
    | true =>
      rw [startsCased_of_ignorable hrest, startsCased_append_of_ignorable hrest]
      simp
    | false =>
      rw [startsCased_append_of_not_ignorable hrest]
      simp

/-- What has been passed of a piece stands between the rest of it and the characters before. -/
theorem lowercaseBetween_eq_iff_forall (cs seen before after : List Char) :
    lowercaseBetween (seen ++ before) cs after = lowercaseBetween seen cs [] ↔
      ∀ first rest, cs = first ++ 'Σ' :: rest →
        endsWord (first.reverse ++ seen) rest =
          endsWord (first.reverse ++ seen ++ before) (rest ++ after) := by
  induction cs generalizing seen with
  | nil => simp [lowercaseBetween]
  | cons c cs ih =>
    have hsplit : lowercaseBetween (seen ++ before)
        (c :: cs) after = lowercaseBetween seen (c :: cs) [] ↔
        lowercaseAt (seen ++ before) c (cs ++ after) = lowercaseAt seen c cs ∧
          lowercaseBetween (c :: seen ++ before) cs after = lowercaseBetween (c :: seen) cs [] := by
      rw [lowercaseBetween, lowercaseBetween, List.append_nil]
      constructor
      · exact fun heq => List.append_inj heq (length_lowercaseAt c _ _ _ _)
      · exact fun ⟨hfirst, hrest⟩ => by rw [hfirst, ← hrest, List.cons_append]
    rw [hsplit, ih]
    constructor
    · rintro ⟨hfirst, hrest⟩ first rest hcs
      rcases List.cons_eq_append_iff.mp hcs with ⟨rfl, hcs⟩ | ⟨first, rfl, rfl⟩
      · obtain ⟨rfl, rfl⟩ := List.cons.inj hcs
        exact (lowercaseAt_sigma_eq_iff.mp hfirst).symm
      · simpa using hrest first rest rfl
    · intro hall
      refine ⟨?_, fun first rest hcs => ?_⟩
      · by_cases hc : c = 'Σ'
        · subst hc
          exact (lowercaseAt_sigma_eq_iff.mpr (hall [] cs rfl)).symm
        · exact lowercaseAt_of_ne hc _ _ _ _
      · simpa using hall (c :: first) rest (by rw [hcs, List.cons_append])

/-- A piece of a text has the small form that it has alone, unless one of its sigmas changes. -/
theorem lowercaseBetween_eq_iff {before piece after : List Char} :
    lowercaseBetween before.reverse piece after = lowercaseAfter [] piece ↔
      ¬ ChangesSigma before piece after := by
  have hall := lowercaseBetween_eq_iff_forall piece [] before.reverse after
  rw [List.nil_append, lowercaseBetween_nil] at hall
  rw [hall]
  constructor
  · rintro hsame (⟨parts, letter, ignored, next⟩ | ⟨parts, ignored, letter, last⟩)
    · refine endsWord_ne_iff.mpr (.inl ⟨?_, ignored, next⟩) (hsame _ _ parts)
      rwa [List.append_nil]
    · refine endsWord_ne_iff.mpr (.inr ⟨?_, letter, last⟩) (hsame _ _ parts)
      rwa [List.append_nil, List.all_reverse]
  · intro hnot first rest parts
    refine Decidable.byContradiction fun hne => hnot ?_
    rcases endsWord_ne_iff.mp hne with ⟨letter, ignored, next⟩ | ⟨ignored, letter, last⟩
    · exact .goesOn parts (by rwa [List.append_nil] at letter) ignored next
    · exact .endsWord parts (by rwa [List.append_nil, List.all_reverse] at ignored) letter last

instance (before piece after : List Char) : Decidable (ChangesSigma before piece after) :=
  decidable_of_iff (lowercaseBetween before.reverse piece after ≠ lowercaseAfter [] piece)
    (by rw [ne_eq, lowercaseBetween_eq_iff, Classical.not_not])

/-- Without a capital sigma nothing changes. -/
theorem not_changesSigma_of_not_mem {before piece after : List Char} (hpiece : 'Σ' ∉ piece) :
    ¬ ChangesSigma before piece after := by
  rintro (⟨parts, -⟩ | ⟨parts, -⟩) <;> exact hpiece (parts ▸ by simp)

end Sigma

section Places

variable {s needle before after : List Char}

/-- A beginning of a text is one in small letters exactly if it keeps its small form. -/
theorem isPrefix_lowercaseAfter_iff :
    lowercaseAfter [] needle <+: lowercaseAfter [] (needle ++ after) ↔
      ¬ ChangesSigma [] needle after := by
  rw [← lowercaseBetween_eq_iff, List.reverse_nil, lowercaseAfter_append]
  constructor
  · intro hprefix
    have hlength := length_lowercaseBetween needle [] [] [] after
    rw [lowercaseBetween_nil] at hlength
    exact ((List.prefix_of_prefix_length_le hprefix (List.prefix_append _ _)
      (Nat.le_of_eq hlength)).eq_of_length
      hlength).symm
  · intro heq
    rw [heq]
    exact List.prefix_append _ _

/-- An end of a text is one in small letters exactly if it keeps its small form. -/
theorem isSuffix_lowercaseAfter_iff :
    lowercaseAfter [] needle <:+ lowercaseAfter [] (before ++ needle) ↔
      ¬ ChangesSigma before needle [] := by
  rw [← lowercaseBetween_eq_iff, lowercaseAfter_append, List.append_nil,
    ← lowercaseBetween_nil before.reverse]
  constructor
  · intro hsuffix
    have hlength := length_lowercaseBetween needle [] [] before.reverse []
    rw [lowercaseBetween_nil] at hlength
    exact ((List.suffix_of_suffix_length_le hsuffix (List.suffix_append _ _)
      (Nat.le_of_eq hlength)).eq_of_length
      hlength).symm
  · intro heq
    rw [heq]
    exact List.suffix_append _ _

/-- A piece of a text is one in small letters if it keeps its small form. -/
theorem isInfix_lowercaseAfter (hsame : ¬ ChangesSigma before needle after) :
    lowercaseAfter [] needle <:+: lowercaseAfter [] (before ++ needle ++ after) := by
  rw [← lowercaseBetween_eq_iff.mpr hsame, List.append_assoc, lowercaseAfter_append,
    lowercaseAfter_append, List.append_nil]
  exact List.infix_append' _ _ _

end Places

end DocQuery.Text
