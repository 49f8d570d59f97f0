import Mathlib.Data.List.Induction
import Mathlib.Logic.Basic
import DocQuery.Mongo.Key
import DocQuery.Proofs.Text.Replacement

namespace DocQuery.Mongo.Key

/-- A character that is not stored, with its marker. -/
abbrev Marker := Char × String

/-- A text with the characters of the given markers escaped. -/
def escapeWith (ms : List Marker) (cs : List Char) : List Char :=
  cs.flatMap fun c => ((ms.lookup c).map String.toList).getD [c]

/-- A text with the given markers read back, the last one first. -/
def restoreWith (ms : List Marker) (cs : List Char) : List Char :=
  ms.foldr (fun m cs => Text.replace m.2.toList [m.1] cs) cs

/-- The texts that are taken for a marker: the marker itself, and the marker without an underscore
    or two of its end, in front of its character. -/
def confusions (m : Marker) : List (List Char) :=
  let text := m.2.toList
  [text, text.take (text.length - 1) ++ [m.1], text.take (text.length - 2) ++ [m.1]]

/-- Whether nothing in a name is taken for a marker, where the characters of the markers before it
    are escaped. -/
def ReadsBack (name : String) : Prop :=
  ∀ i, (hi : i < markers.length) → ∀ text ∈ confusions markers[i],
    ¬ text <:+: escapeWith (markers.take i) name.toList

private theorem forall_occursIn_iff_readsBack {name : String} :
    (∀ i : Fin markers.length, ∀ text ∈ confusions markers[i],
      Text.occursIn text (escapeWith (markers.take i) name.toList) = false) ↔ ReadsBack name := by
  simp only [ReadsBack, ← Text.occursIn_iff, Bool.not_eq_true]
  exact ⟨fun hnone i hi => hnone ⟨i, hi⟩, fun hnone i => hnone i.1 i.2⟩

instance (name : String) : Decidable (ReadsBack name) :=
  decidable_of_iff _ forall_occursIn_iff_readsBack

variable {ms : List Marker} {m : Marker} {cs : List Char}

/-- The escapes for single characters are those of the markers in turn. -/
theorem escape_eq (name : String) :
    escape name = String.ofList (escapeWith markers name.toList) := by
  have hchar : escapeChar = fun c => ((markers.lookup c).map String.toList).getD [c] := by
    funext c
    unfold escapeChar
    cases markers.lookup c <;> rfl
  rw [escape, hchar]
  rfl

private theorem restore_eq (name : String) :
    restore name = String.ofList (restoreWith markers name.toList) := rfl

/-- Markers whose texts hold none of the characters that are escaped. -/
structure Separate (ms : List Marker) : Prop where
  nodup : (ms.map (·.1)).Nodup
  text_ne : ∀ m ∈ ms, m.2.toList ≠ []
  not_mem : ∀ m ∈ ms, ∀ other ∈ ms, other.1 ∉ m.2.toList

/-- No marker holds a character that another one stands for. -/
theorem separate_markers : Separate markers := ⟨by decide, by decide, by decide⟩

private theorem Separate.of_append {more : List Marker} (hms : Separate (ms ++ more)) :
    Separate ms where
  nodup := by
    have hnodup := hms.nodup
    rw [List.map_append] at hnodup
    exact (List.nodup_append.mp hnodup).1
  text_ne := fun m hm => hms.text_ne m (List.mem_append_left _ hm)
  not_mem := fun m hm other hother =>
    hms.not_mem m (List.mem_append_left _ hm) other (List.mem_append_left _ hother)

private theorem Separate.ne_of_concat (hms : Separate (ms ++ [m])) {other : Marker}
    (hother : other ∈ ms) :
    other.1 ≠ m.1 := by
  have hnodup := hms.nodup
  rw [List.map_append] at hnodup
  exact (List.nodup_append.mp hnodup).2.2 _ (List.mem_map_of_mem hother) _ List.mem_cons_self

private theorem mem_of_lookup {c : Char} {text : String} (hfound : ms.lookup c = some text) :
    (c, text) ∈ ms := by
  obtain ⟨before, after, rfl, -⟩ := List.lookup_eq_some_iff.mp hfound
  simp

/-- The characters of one more marker are escaped after those of the others. -/
theorem escapeWith_concat (hms : Separate (ms ++ [m])) (cs : List Char) :
    escapeWith (ms ++ [m]) cs = Text.expand m.1 m.2.toList (escapeWith ms cs) := by
  have hself : m ∈ ms ++ [m] := List.mem_append_right _ (List.mem_singleton.mpr rfl)
  simp only [escapeWith, Text.expand, List.flatMap_assoc]
  congr 1
  funext c
  rw [List.lookup_append]
  cases hfound : ms.lookup c with
  | some text =>
    have hmem : (c, text) ∈ ms ++ [m] := List.mem_append_left _ (mem_of_lookup hfound)
    have hfree : m.1 ∉ text.toList := hms.not_mem _ hmem m hself
    exact (Text.expand_of_not_mem hfree).symm
  | none =>
    obtain ⟨other, text⟩ := m
    by_cases hc : c = other
    · simp [hc]
    · have hne : (c == other) = false := beq_eq_false_iff_ne.mpr hc
      simp [List.lookup_cons, hc, hne]

private theorem restoreWith_concat (cs : List Char) :
    restoreWith (ms ++ [m]) cs = restoreWith ms (Text.replace m.2.toList [m.1] cs) := by
  rw [restoreWith, List.foldr_append]
  rfl

/-- What is read back from a text without the characters is stored as that text again. -/
theorem escapeWith_restoreWith (hms : Separate ms) (hfree : ∀ m ∈ ms, m.1 ∉ cs) :
    escapeWith ms (restoreWith ms cs) = cs := by
  induction ms using List.reverseRecOn generalizing cs with
  | nil => simp [escapeWith, restoreWith]
  | append_singleton ms m ih =>
    have hm : m ∈ ms ++ [m] := List.mem_append_right _ (List.mem_singleton.mpr rfl)
    have hreplaced : ∀ other ∈ ms, other.1 ∉ Text.replace m.2.toList [m.1] cs := by
      intro other hother
      have hne : other.1 ∉ [m.1] := List.mem_singleton.not.mpr (hms.ne_of_concat hother)
      exact Text.not_mem_replace (hms.text_ne m hm) hne
        (hfree other (List.mem_append_left _ hother))
    rw [escapeWith_concat hms, restoreWith_concat, ih hms.of_append hreplaced]
    exact Text.expand_replace (hms.text_ne m hm) (hfree m hm)

/-- A text with markers holds none of the characters that they stand for. -/
theorem not_mem_escapeWith (hms : Separate ms) (hm : m ∈ ms) (cs : List Char) :
    m.1 ∉ escapeWith ms cs := by
  intro hmem
  obtain ⟨c, -, hc⟩ := List.mem_flatMap.mp hmem
  cases hfound : ms.lookup c with
  | some text =>
    rw [hfound] at hc
    exact hms.not_mem _ (mem_of_lookup hfound) m hm hc
  | none =>
    rw [hfound] at hc
    have hcm : m.1 = c := List.mem_singleton.mp hc
    have hnever := List.lookup_eq_none_iff.mp hfound m hm
    simp [hcm] at hnever

private theorem forall_getElem_concat {P : Marker → List Marker → Prop} :
    (∀ i, (hi : i < (ms ++ [m]).length) → P (ms ++ [m])[i] ((ms ++ [m]).take i)) ↔
      (∀ i, (hi : i < ms.length) → P ms[i] (ms.take i)) ∧ P m ms := by
  constructor
  · intro hall
    constructor
    · intro i hi
      have hone := hall i (by rw [List.length_append]; omega)
      rwa [List.getElem_append_left hi, List.take_append_of_le_length (Nat.le_of_lt hi)] at hone
    · have hone := hall ms.length (by simp)
      rwa [List.getElem_concat_length rfl, List.take_left] at hone
  · rintro ⟨hall, hlast⟩ i hi
    by_cases hlt : i < ms.length
    · rw [List.getElem_append_left hlt, List.take_append_of_le_length (Nat.le_of_lt hlt)]
      exact hall i hlt
    · obtain rfl : i = ms.length := by
        rw [List.length_append, List.length_singleton] at hi
        omega
      rwa [List.getElem_concat_length rfl, List.take_left]

/-- A text is read back when none of the passes takes anything in it for its marker. -/
theorem restoreWith_escapeWith_eq_self_iff (hms : Separate ms) :
    restoreWith ms (escapeWith ms cs) = cs ↔
      ∀ i, (hi : i < ms.length) → ∀ text, Text.Confuses ms[i].1 ms[i].2.toList text →
        ¬ text <:+: escapeWith (ms.take i) cs := by
  induction ms using List.reverseRecOn with
  | nil => simp [escapeWith, restoreWith]
  | append_singleton ms m ih =>
    have hm : m ∈ ms ++ [m] := List.mem_append_right _ (List.mem_singleton.mpr rfl)
    have hpass : Text.replace m.2.toList [m.1] (Text.expand m.1 m.2.toList (escapeWith ms cs))
        = escapeWith ms cs ↔ _ :=
      Text.replace_expand_eq_self_iff (hms.text_ne m hm) (hms.not_mem m hm m hm)
    rw [escapeWith_concat hms, restoreWith_concat, forall_getElem_concat
      (P := fun m before => ∀ text, Text.Confuses m.1 m.2.toList text →
        ¬ text <:+: escapeWith before cs),
      ← ih hms.of_append, ← hpass]
    constructor
    · intro hrestored
      -- no pass but the last has touched the characters of the others
      have hfree : ∀ other ∈ ms, other.1 ∉ Text.replace m.2.toList [m.1]
          (Text.expand m.1 m.2.toList (escapeWith ms cs)) := by
        intro other hother
        have hne : other.1 ∉ [m.1] := List.mem_singleton.not.mpr (hms.ne_of_concat hother)
        have hmarker := hms.not_mem m hm other (List.mem_append_left _ hother)
        exact Text.not_mem_replace (hms.text_ne m hm) hne
          (Text.not_mem_expand hmarker (not_mem_escapeWith hms.of_append hother cs))
      have hlast := escapeWith_restoreWith hms.of_append hfree
      rw [hrestored] at hlast
      exact ⟨by rw [hlast, hrestored], hlast.symm⟩
    · rintro ⟨hothers, hlast⟩
      rw [hlast, hothers]

private theorem mem_confusions_iff {text : List Char} (hm : m ∈ markers) :
    text ∈ confusions m ↔ Text.Confuses m.1 m.2.toList text := by
  have hends : ∀ m ∈ markers, ∀ n < m.2.toList.length,
      (0 < n ∧ m.2.toList.drop n <+: m.2.toList ↔
        n = m.2.toList.length - 1 ∨ n = m.2.toList.length - 2) := by
    decide
  have hlong : ∀ m ∈ markers, 2 < m.2.toList.length := by decide
  have hends := hends m hm
  have hlong := hlong m hm
  simp only [confusions, List.mem_cons, List.not_mem_nil, or_false]
  refine or_congr_right ⟨?_, ?_⟩
  · rintro (rfl | rfl)
    · have hn := (hends (m.2.toList.length - 1) (by omega)).mpr (.inl rfl)
      exact ⟨_, hn.1, by omega, hn.2, rfl⟩
    · have hn := (hends (m.2.toList.length - 2) (by omega)).mpr (.inr rfl)
      exact ⟨_, hn.1, by omega, hn.2, rfl⟩
  · rintro ⟨n, hpos, hn, hdrop, rfl⟩
    rcases (hends n hn).mp ⟨hpos, hdrop⟩ with rfl | rfl
    · exact .inl rfl
    · exact .inr rfl

/-- A name is read back when nothing in it is taken for a marker. -/
theorem restore_escape_eq_self_iff {name : String} :
    restore (escape name) = name ↔ ReadsBack name := by
  rw [escape_eq, restore_eq, String.toList_ofList, ← String.toList_inj, String.toList_ofList,
    restoreWith_escapeWith_eq_self_iff separate_markers]
  refine forall_congr' fun i => forall_congr' fun hi => forall_congr' fun text => ?_
  rw [mem_confusions_iff (List.getElem_mem hi)]

example : ReadsBack "meta.dot_$null" := by decide

/-- The names that are stored beside the data. -/
def reserved : List String := [id, created, updated]

/-- A name without the characters is stored as it is. -/
theorem escape_eq_self {name : String} (hplain : ∀ m ∈ markers, m.1 ∉ name.toList) :
    escape name = name := by
  have hchar : ∀ c ∈ name.toList, ((markers.lookup c).map String.toList).getD [c] = [c] := by
    intro c hc
    cases hfound : markers.lookup c with
    | none => rfl
    | some text => exact absurd hc (hplain _ (mem_of_lookup hfound))
  rw [escape_eq, escapeWith, List.flatMap_def, List.map_congr_left hchar, ← List.flatMap_def,
    List.flatMap_singleton', String.ofList_toList]

/-- No other name is stored as one of those beside the data. -/
theorem escape_eq_self_of_mem_reserved {name : String} (hreserved : escape name ∈ reserved) :
    escape name = name := by
  refine escape_eq_self fun m hm hmem => ?_
  have hfound : ∀ m ∈ markers, markers.lookup m.1 = some m.2 := by decide
  have hinfix : m.2.toList <:+: (escape name).toList := by
    obtain ⟨before, after, hname⟩ := List.append_of_mem hmem
    rw [escape_eq, String.toList_ofList, hname]
    refine ⟨escapeWith markers before, escapeWith markers after, ?_⟩
    simp [escapeWith, hfound m hm]
  have hnever : ∀ name ∈ reserved, ∀ m ∈ markers,
      Text.occursIn m.2.toList name.toList = false := by
    decide
  have hnone := hnever _ hreserved m hm
  rw [Text.occursIn_iff.mpr hinfix] at hnone
  cases hnone

end DocQuery.Mongo.Key
