import DocQuery.Text.Pieces

namespace DocQuery.Text

variable {target replacement cs rest : List Char} {c : Char}

theorem replace_nil : replace target replacement [] = [] := by simp [replace, replaceFrom]

private theorem replaceFrom_eq_replace_drop (covered : Nat) (cs : List Char) :
    replaceFrom target replacement covered cs = replace target replacement (cs.drop covered) := by
  induction cs generalizing covered with
  | nil => cases covered <;> simp [replace, replaceFrom]
  | cons x rest ih =>
    cases covered with
    | zero => rfl
    | succ covered =>
      rw [replaceFrom, ih, List.drop_succ_cons]

/-- An occurrence at the start is replaced, and the rest is gone through from behind it. -/
theorem replace_append (hne : target ≠ []) (rest : List Char) :
    replace target replacement (target ++ rest) =
      replacement ++ replace target replacement rest := by
  obtain ⟨x, more, rfl⟩ := List.exists_cons_of_ne_nil hne
  have hcovered : (x :: more).length - 1 = more.length := by simp
  rw [List.cons_append, replace, replaceFrom, if_pos ⟨rest, rfl⟩,
    replaceFrom_eq_replace_drop, hcovered, List.drop_left]

theorem replace_cons_of_not_start {x : Char} (hnot : ¬ target <+: x :: rest) :
    replace target replacement (x :: rest) = x :: replace target replacement rest := by
  rw [replace, replaceFrom, if_neg hnot]
  rfl

/-- Induction along a replacement: each text is gone through from an occurrence to what is behind
    it, or else from one character to the next. -/
theorem replace_induction {motive : List Char → Prop} (hne : target ≠ []) (nil : motive [])
    (found : ∀ rest, motive rest → motive (target ++ rest))
    (passed : ∀ x rest, ¬ target <+: x :: rest → motive rest → motive (x :: rest))
    (cs : List Char) :
    motive cs := by
  induction hlength : cs.length using Nat.strongRecOn generalizing cs with
  | ind length ih =>
    by_cases hstarts : target <+: cs
    · obtain ⟨rest, rfl⟩ := hstarts
      have hpos := List.length_pos_iff.mpr hne
      have hshorter : rest.length < length := by
        rw [← hlength, List.length_append]
        omega
      exact found rest (ih _ hshorter rest rfl)
    · cases cs with
      | nil => exact nil
      | cons x rest =>
        have hshorter : rest.length < length := by
          rw [← hlength]
          exact Nat.lt_succ_self _
        exact passed x rest hstarts (ih _ hshorter rest rfl)

/-- Replacing brings in no characters but those of the replacement. -/
theorem not_mem_replace {x : Char} (hne : target ≠ []) (hreplacement : x ∉ replacement)
    (hcs : x ∉ cs) :
    x ∉ replace target replacement cs := by
  induction cs using replace_induction hne with
  | nil =>
    rw [replace_nil]
    exact hcs
  | found rest ih =>
    have hrest : x ∉ rest := fun hmem => hcs (List.mem_append_right _ hmem)
    rw [replace_append hne, List.mem_append, not_or]
    exact ⟨hreplacement, ih hrest⟩
  | passed y rest hstarts ih =>
    obtain ⟨hy, hrest⟩ := List.ne_and_not_mem_of_not_mem_cons hcs
    rw [replace_cons_of_not_start hstarts]
    exact List.not_mem_cons_of_ne_of_not_mem hy (ih hrest)

/-- A text with a marker in place of a character. -/
def expand (c : Char) (marker : List Char) (cs : List Char) : List Char :=
  cs.flatMap fun x => if x = c then marker else [x]

variable {marker : List Char}

theorem expand_cons_self : expand c marker (c :: rest) = marker ++ expand c marker rest := by
  simp [expand]

theorem expand_cons_of_ne {x : Char} (hne : x ≠ c) :
    expand c marker (x :: rest) = x :: expand c marker rest := by
  simp [expand, hne]

/-- Nothing but markers comes in. -/
theorem not_mem_expand {x : Char} (hmarker : x ∉ marker) (hcs : x ∉ cs) :
    x ∉ expand c marker cs := by
  intro hmem
  obtain ⟨y, hy, hx⟩ := List.mem_flatMap.mp hmem
  split at hx
  · exact hmarker hx
  · exact hcs (List.mem_singleton.mp hx ▸ hy)

/-- A text without the character stays as it is. -/
theorem expand_of_not_mem (hfree : c ∉ cs) : expand c marker cs = cs := by
  induction cs with
  | nil => rfl
  | cons x rest ih =>
    obtain ⟨hx, hrest⟩ := List.ne_and_not_mem_of_not_mem_cons hfree
    rw [expand_cons_of_ne (Ne.symm hx), ih hrest]

/-- Where the character does not occur, a replaced marker is written again. -/
theorem expand_replace (hne : marker ≠ []) (hfree : c ∉ cs) :
    expand c marker (replace marker [c] cs) = cs := by
  induction cs using replace_induction hne with
  | nil =>
    rw [replace_nil]
    rfl
  | found rest ih =>
    have hrest : c ∉ rest := fun hmem => hfree (List.mem_append_right _ hmem)
    rw [replace_append hne, List.singleton_append, expand_cons_self, ih hrest]
  | passed x rest hstarts ih =>
    obtain ⟨hx, hrest⟩ := List.ne_and_not_mem_of_not_mem_cons hfree
    rw [replace_cons_of_not_start hstarts, expand_cons_of_ne (Ne.symm hx), ih hrest]

/-- What stands at the start of a text with markers stands at the start of the text itself, but for
    an end that is the start of a written marker. -/
theorem prefix_expand_iff {start : List Char} (hfree : c ∉ start)
    (hlength : start.length ≤ marker.length) :
    start <+: expand c marker cs ↔
      start <+: cs ∨ ∃ n < start.length, start.drop n <+: marker ∧
        start.take n ++ [c] <+: cs := by
  induction start generalizing cs with
  | nil => simp
  | cons x start ih =>
    obtain ⟨hx, hstart⟩ := List.ne_and_not_mem_of_not_mem_cons hfree
    cases cs with
    | nil => simp [expand]
    | cons y rest =>
      by_cases hy : y = c
      · -- the whole start lies in the marker that is written for the first character
        subst hy
        rw [expand_cons_self]
        constructor
        · intro hstarts
          refine .inr ⟨0, Nat.succ_pos _, ?_,
            List.cons_prefix_cons.mpr ⟨rfl, List.nil_prefix⟩⟩
          exact List.prefix_of_prefix_length_le hstarts (List.prefix_append _ _) hlength
        · rintro (hcs | ⟨n, -, hdrop, htake⟩)
          · exact absurd (List.cons_prefix_cons.mp hcs).1.symm hx
          · cases n with
            | zero => exact hdrop.trans (List.prefix_append _ _)
            | succ n => exact absurd (List.cons_prefix_cons.mp htake).1.symm hx
      · have hshorter : start.length ≤ marker.length := Nat.le_of_succ_le hlength
        rw [expand_cons_of_ne hy, List.cons_prefix_cons, List.cons_prefix_cons, ih hstart hshorter]
        constructor
        · rintro ⟨rfl, hrest | ⟨n, hn, hdrop, htake⟩⟩
          · exact .inl ⟨rfl, hrest⟩
          · exact .inr
              ⟨n + 1, Nat.succ_lt_succ hn, hdrop, List.cons_prefix_cons.mpr ⟨rfl, htake⟩⟩
        · rintro (⟨rfl, hrest⟩ | ⟨n, hn, hdrop, htake⟩)
          · exact ⟨rfl, .inl hrest⟩
          · cases n with
            | zero => exact absurd (List.cons_prefix_cons.mp htake).1.symm hy
            | succ n =>
              obtain ⟨rfl, hrest⟩ := List.cons_prefix_cons.mp htake
              exact ⟨rfl, .inr ⟨n, Nat.lt_of_succ_lt_succ hn, hdrop, hrest⟩⟩

/-- The texts that are taken for a marker: the marker, and a beginning of it in front of the
    character where its end is also the beginning of a marker. -/
def Confuses (c : Char) (marker text : List Char) : Prop :=
  text = marker ∨
    ∃ n, 0 < n ∧ n < marker.length ∧ marker.drop n <+: marker ∧ text = marker.take n ++ [c]

/-- No such text begins with the character. -/
theorem Confuses.exists_cons {text : List Char} (hne : marker ≠ []) (hmarker : c ∉ marker)
    (hconfuses : Confuses c marker text) : ∃ x more, text = x :: more ∧ x ≠ c := by
  obtain ⟨x, more, rfl⟩ := List.exists_cons_of_ne_nil hne
  have hx : x ≠ c := fun heq => hmarker (heq ▸ List.mem_cons_self)
  rcases hconfuses with rfl | ⟨n, hpos, -, -, rfl⟩
  · exact ⟨x, more, rfl, hx⟩
  · obtain ⟨n, rfl⟩ := Nat.exists_eq_succ_of_ne_zero (Nat.ne_of_gt hpos)
    exact ⟨x, more.take n ++ [c], rfl, hx⟩

/-- A marker is found at the start when a text that is taken for it stands there. -/
theorem marker_prefix_expand_iff {x : Char} (hmarker : c ∉ marker) (hx : x ≠ c) :
    marker <+: expand c marker (x :: rest) ↔ ∃ text, Confuses c marker text ∧
      text <+: x :: rest := by
  rw [prefix_expand_iff hmarker (Nat.le_refl _)]
  constructor
  · rintro (hstarts | ⟨n, hn, hdrop, htake⟩)
    · exact ⟨marker, .inl rfl, hstarts⟩
    · have hpos : 0 < n := by
        refine Nat.pos_of_ne_zero fun hzero => hx ?_
        subst hzero
        exact (List.cons_prefix_cons.mp htake).1.symm
      exact ⟨_, .inr ⟨n, hpos, hn, hdrop, rfl⟩, htake⟩
  · rintro ⟨text, rfl | ⟨n, -, hn, hdrop, rfl⟩, hstarts⟩
    · exact .inl hstarts
    · exact .inr ⟨n, hn, hdrop, hstarts⟩

/-- Replacing the written markers gives the text back when nothing in it is taken for a marker. -/
theorem replace_expand_eq_self_iff (hne : marker ≠ []) (hmarker : c ∉ marker) :
    replace marker [c] (expand c marker cs) = cs ↔
      ∀ text, Confuses c marker text → ¬ text <:+: cs := by
  induction cs with
  | nil =>
    have hnil : replace marker [c] (expand c marker []) = [] := replace_nil
    refine ⟨fun _ text hconfuses hinfix => ?_, fun _ => hnil⟩
    obtain ⟨x, more, rfl, -⟩ := hconfuses.exists_cons hne hmarker
    cases List.infix_nil.mp hinfix
  | cons x rest ih =>
    simp only [List.infix_cons_iff, not_or]
    by_cases hx : x = c
    · subst hx
      rw [expand_cons_self, replace_append hne, List.singleton_append, List.cons_eq_cons]
      constructor
      · rintro ⟨-, hrest⟩ text hconfuses
        refine ⟨fun hstarts => ?_, ih.mp hrest text hconfuses⟩
        obtain ⟨y, more, rfl, hy⟩ := hconfuses.exists_cons hne hmarker
        exact hy (List.cons_prefix_cons.mp hstarts).1
      · exact fun hnone => ⟨rfl, ih.mpr fun text hconfuses => (hnone text hconfuses).2⟩
    · have hfound : marker <+: expand c marker (x :: rest) ↔ _ :=
        marker_prefix_expand_iff hmarker hx
      by_cases hstarts : marker <+: expand c marker (x :: rest)
      · -- the first marker is not where the text has the character
        obtain ⟨text, hconfuses, htext⟩ := hfound.mp hstarts
        obtain ⟨after, hafter⟩ := hstarts
        refine ⟨fun heq => ?_, fun hnone => absurd htext (hnone text hconfuses).1⟩
        rw [← hafter, replace_append hne] at heq
        exact absurd (List.cons.inj heq).1.symm hx
      · have hnone : ∀ text, Confuses c marker text → ¬ text <+: x :: rest :=
          fun text hconfuses htext => hstarts (hfound.mpr ⟨text, hconfuses, htext⟩)
        rw [expand_cons_of_ne hx] at hstarts ⊢
        rw [replace_cons_of_not_start hstarts, List.cons_eq_cons, ih]
        constructor
        · exact fun ⟨_, hrest⟩ text hconfuses =>
            ⟨hnone text hconfuses, hrest text hconfuses⟩
        · exact fun hrest => ⟨rfl, fun text hconfuses => (hrest text hconfuses).2⟩

end DocQuery.Text
