import Mathlib.Data.List.TakeWhile
import DocQuery.Text.Pieces

namespace DocQuery.Text

/-- Even the empty text has a piece. -/
theorem split_ne_nil (separator : Char) (s : String) : split separator s ≠ [] :=
  fun hnil => List.splitOn_ne_nil separator s.toList (List.map_eq_nil_iff.mp hnil)

/-- A text without the separator is one piece. -/
theorem split_of_not_mem {separator : Char} {s : String} (hnone : separator ∉ s.toList) :
    split separator s = [s] := by
  rw [split, List.splitOn_eq_singleton hnone, List.map_singleton, String.ofList_toList]

/-- A separator between two texts stands between their pieces. -/
theorem split_append (separator : Char) (s t : String) :
    split separator (s ++ String.singleton separator ++ t) =
      split separator s ++ split separator t := by
  have hchars : (s ++ String.singleton separator ++ t).toList =
      s.toList ++ separator :: t.toList := by simp
  rw [split, hchars, List.splitOn_append_cons_self, List.map_append]
  rfl

/-- No piece holds the separator. -/
theorem not_mem_of_mem_splitOn {separator : Char} {cs piece : List Char}
    (hpiece : piece ∈ cs.splitOn separator) : separator ∉ piece := by
  induction cs generalizing piece with
  | nil =>
    rw [List.splitOn_nil, List.mem_singleton] at hpiece
    exact hpiece ▸ List.not_mem_nil
  | cons c rest ih =>
    rw [List.splitOn_cons_eq_if_modifyHead] at hpiece
    split at hpiece
    · rcases List.mem_cons.mp hpiece with rfl | hrest
      · exact List.not_mem_nil
      · exact ih hrest
    · next hne =>
      obtain ⟨first, others, hsplit⟩ :=
        List.exists_cons_of_ne_nil (List.splitOn_ne_nil separator rest)
      rw [hsplit, List.modifyHead_cons, List.mem_cons] at hpiece
      rcases hpiece with rfl | hrest
      · have hfirst : separator ∉ first := ih (by simp [hsplit])
        simpa using ⟨fun heq => hne (by simp [heq]), hfirst⟩
      · exact ih (by simp [hsplit, hrest])

@[inherit_doc not_mem_of_mem_splitOn]
theorem not_mem_of_mem_split {separator : Char} {s piece : String}
    (hpiece : piece ∈ split separator s) :
    separator ∉ piece.toList := by
  obtain ⟨chars, hchars, rfl⟩ := List.mem_map.mp hpiece
  rw [String.toList_ofList]
  exact not_mem_of_mem_splitOn hchars

/-- The pieces put together with the separator give the text. -/
theorem intercalate_split (separator : Char) (s : String) :
    (String.singleton separator).intercalate (split separator s) = s := by
  apply String.toList_inj.mp
  have hchars : (split separator s).map String.toList = s.toList.splitOn separator := by
    simp [split, Function.comp_def]
  rw [String.toList_intercalate, hchars, String.toList_singleton, List.intercalate_splitOn]

/-- Pieces that were split at dots are joined to the same text. -/
theorem joinDots_split (s : String) : joinDots (split '.' s) = s := by
  have hdot : "." = String.singleton '.' := rfl
  rw [joinDots, hdot, intercalate_split]

/-- Texts without the separator are the pieces of what they are put together to. -/
theorem split_intercalate {separator : Char} {pieces : List String} (hne : pieces ≠ [])
    (hnone : ∀ piece ∈ pieces, separator ∉ piece.toList) :
    split separator ((String.singleton separator).intercalate pieces) = pieces := by
  rw [split, String.toList_intercalate, String.toList_singleton,
    List.splitOn_intercalate separator (by simpa using hnone) (by simpa using hne), List.map_map]
  simp [Function.comp_def]

/-- A text has a known beginning when it is something after that beginning. -/
theorem dropStart?_eq_some_iff {start s rest : String} :
    dropStart? start s = some rest ↔ s = start ++ rest := by
  unfold dropStart?
  constructor
  · intro hdrop
    split at hdrop
    · next hstarts =>
      obtain ⟨after, hafter⟩ := hstarts
      cases hdrop
      apply String.toList_inj.mp
      simp [← hafter]
    · cases hdrop
  · rintro rfl
    rw [if_pos (by simp)]
    simp

theorem dropStart?_eq_none_iff {start s : String} :
    dropStart? start s = none ↔ ¬ start.toList <+: s.toList := by
  simp [dropStart?]

/-- A text has a known end when it is something before that end. -/
theorem dropEnd?_eq_some_iff {ending s rest : String} :
    dropEnd? ending s = some rest ↔ s = rest ++ ending := by
  unfold dropEnd?
  constructor
  · intro hdrop
    split at hdrop
    · next hsuffix =>
      obtain ⟨before, hbefore⟩ := hsuffix
      cases hdrop
      apply String.toList_inj.mp
      simp [← hbefore]
    · cases hdrop
  · rintro rfl
    rw [if_pos (by simp)]
    simp

theorem dropEnd?_eq_none_iff {ending s : String} :
    dropEnd? ending s = none ↔ ¬ ending.toList <:+ s.toList := by
  simp [dropEnd?]

/-- A text without its known end, or else the whole of one that does not end so. -/
theorem dropEnd_eq_iff {ending s rest : String} :
    dropEnd ending s = rest ↔ s = rest ++ ending ∨ s = rest ∧
      ¬ ending.toList <:+ s.toList := by
  unfold dropEnd
  cases hdrop : dropEnd? ending s with
  | none =>
    have hnot : ¬ ending.toList <:+ s.toList := dropEnd?_eq_none_iff.mp hdrop
    constructor
    · exact fun hrest => .inr ⟨hrest, hnot⟩
    · rintro (rfl | ⟨hrest, -⟩)
      · exact absurd (by simp) hnot
      · exact hrest
  | some before =>
    have hs : s = before ++ ending := dropEnd?_eq_some_iff.mp hdrop
    subst hs
    constructor
    · exact fun hrest => .inl (hrest ▸ rfl)
    · rintro (hrest | ⟨-, hnot⟩)
      · exact (String.append_left_inj ending).mp hrest
      · exact absurd (by simp) hnot

/-- A text is cut at the first of its separators. -/
theorem cutAt?_eq_some_iff {separator : Char} {s before after : String} :
    cutAt? separator s = some (before, after) ↔
      separator ∉ before.toList ∧ s = before ++ String.singleton separator ++ after := by
  unfold cutAt?
  constructor
  · intro hcut
    have hall := List.takeWhile_append_dropWhile (p := (· ≠ separator)) (l := s.toList)
    have hfirst := List.head?_dropWhile_not (· ≠ separator) s.toList
    split at hcut
    · cases hcut
    · next c rest hdrop =>
      cases hcut
      rw [hdrop] at hall hfirst
      obtain rfl : c = separator := by simpa using hfirst
      refine ⟨fun hmem => ?_, String.toList_inj.mp ?_⟩
      · rw [String.toList_ofList] at hmem
        simpa using List.mem_takeWhile_imp hmem
      · simpa using hall.symm
  · rintro ⟨hnone, rfl⟩
    have hbefore : ∀ c ∈ before.toList, decide (c ≠ separator) = true := by
      intro c hc
      exact decide_eq_true fun heq => hnone (heq ▸ hc)
    have hchars : (before ++ String.singleton separator ++ after).toList
        = before.toList ++ separator :: after.toList := by simp
    rw [hchars, List.dropWhile_append_of_pos hbefore, List.takeWhile_append_of_pos hbefore]
    simp

/-- A text without the separator is not cut, and no other is left whole. -/
theorem cutAt?_eq_none_iff {separator : Char} {s : String} :
    cutAt? separator s = none ↔ separator ∉ s.toList := by
  unfold cutAt?
  constructor
  · intro hcut
    split at hcut
    · next hdrop =>
      intro hmem
      simpa using List.dropWhile_eq_nil_iff.mp hdrop separator hmem
    · cases hcut
  · intro hnone
    have hdrop : s.toList.dropWhile (· ≠ separator) = [] := by
      refine List.dropWhile_eq_nil_iff.mpr fun c hc => ?_
      exact decide_eq_true fun heq => hnone (heq ▸ hc)
    rw [hdrop]

/-- The last separator of a text tells the two texts at its sides. -/
theorem append_singleton_append_inj {separator : Char} {s s' t t' : String}
    (ht : separator ∉ t.toList) (ht' : separator ∉ t'.toList)
    (heq : s ++ String.singleton separator ++ t = s' ++ String.singleton separator ++ t') :
    s = s' ∧ t = t' := by
  have hpieces := congrArg (split separator) heq
  rw [split_append, split_append, split_of_not_mem ht, split_of_not_mem ht'] at hpieces
  have hlast := List.append_inj_right' hpieces rfl
  obtain rfl : t = t' := by simpa using hlast
  have hs := (String.append_left_inj t).mp heq
  exact ⟨(String.append_left_inj _).mp hs, rfl⟩

end DocQuery.Text
