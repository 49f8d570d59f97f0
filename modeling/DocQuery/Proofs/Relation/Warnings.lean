import Mathlib.Data.List.Induction
import Mathlib.Data.List.Nodup
import DocQuery.Proofs.Relation.Candidates

namespace DocQuery

/-- Among elements with one more at the end, that one is another first occurrence unless it was
    there before. -/
theorem eraseDups_concat {α : Type} [DecidableEq α] (as : List α) (a : α) :
    (as ++ [a]).eraseDups = if a ∈ as then as.eraseDups else as.eraseDups ++ [a] := by
  rw [List.eraseDups_append]
  by_cases hmem : a ∈ as
  · rw [if_pos hmem]
    simp [List.removeAll, hmem]
  · rw [if_neg hmem]
    simp [List.removeAll, hmem, List.eraseDups_cons]

/-- A function that tells elements apart tells their first occurrences. -/
theorem eraseDups_map {α β : Type} [DecidableEq α] [DecidableEq β] {f : α → β}
    {as : List α} (hapart : ∀ a ∈ as, ∀ b ∈ as, f a = f b → a = b) :
    (as.map f).eraseDups = as.eraseDups.map f := by
  induction as using List.reverseRecOn with
  | nil => rfl
  | append_singleton rest last ih =>
    have hlast : f last ∈ rest.map f ↔ last ∈ rest := by
      refine ⟨fun hmem => ?_, List.mem_map_of_mem⟩
      obtain ⟨a, ha, hsame⟩ := List.mem_map.mp hmem
      have heq := hapart a (List.mem_append_left _ ha) last (by simp) hsame
      exact heq ▸ ha
    rw [List.map_append, List.map_singleton, eraseDups_concat, eraseDups_concat,
      ih fun a ha b hb => hapart a (List.mem_append_left _ ha) b (List.mem_append_left _ hb)]
    simp only [hlast]
    split
    · rfl
    · rw [List.map_append, List.map_singleton]

namespace Warning

/-- Merging loses no warning and makes up none. -/
theorem mem_merge_iff {w : Warning} {known new : List Warning} :
    w ∈ merge known new ↔ w ∈ known ∨ w ∈ new := by
  unfold merge
  induction new generalizing known with
  | nil => simp
  | cons first rest ih =>
    rw [List.foldl_cons, ih, List.mem_cons]
    by_cases hknown : first ∈ known
    · rw [if_pos hknown]
      constructor
      · exact Or.imp_right Or.inr
      · rintro (hw | rfl | hw)
        · exact .inl hw
        · exact .inl hknown
        · exact .inr hw
    · rw [if_neg hknown, List.mem_append, List.mem_singleton, or_assoc]

/-- Merging brings in no warning twice. -/
theorem nodup_merge {known : List Warning} (hknown : known.Nodup) (new : List Warning) :
    (merge known new).Nodup := by
  unfold merge
  induction new generalizing known with
  | nil => exact hknown
  | cons first rest ih =>
    rw [List.foldl_cons]
    refine ih ?_
    split
    · exact hknown
    · next hnew =>
      refine List.Nodup.append hknown (List.nodup_singleton first) fun w hw hfirst => ?_
      exact hnew (List.mem_singleton.mp hfirst ▸ hw)

/-- Warnings brought together from nothing are their first occurrences. -/
theorem merge_nil (new : List Warning) : merge [] new = new.eraseDups := by
  induction new using List.reverseRecOn with
  | nil => rfl
  | append_singleton rest last ih =>
    have hstep : merge [] (rest ++ [last]) =
        if last ∈ merge [] rest then merge [] rest else merge [] rest ++ [last] := by
      unfold merge
      rw [List.foldl_append, List.foldl_cons, List.foldl_nil]
    rw [hstep, ih, eraseDups_concat]
    simp only [List.mem_eraseDups]

section Fold

variable {α : Type} {said : α → List Warning} {as : List α} {known : List Warning}

/-- Merging in turn loses no warning and makes up none. -/
theorem mem_foldl_merge_iff {w : Warning} :
    w ∈ as.foldl (fun ws a => merge ws (said a)) known ↔ w ∈ known ∨
      ∃ a ∈ as, w ∈ said a := by
  induction as generalizing known with
  | nil => simp
  | cons a rest ih => rw [List.foldl_cons, ih, mem_merge_iff, or_assoc, List.exists_mem_cons_iff]

/-- Merging in turn brings in no warning twice. -/
theorem nodup_foldl_merge (hknown : known.Nodup) :
    (as.foldl (fun ws a => merge ws (said a)) known).Nodup := by
  induction as generalizing known with
  | nil => exact hknown
  | cons a rest ih => exact ih (nodup_merge hknown (said a))

end Fold

end Warning

namespace Reference

/-- One more reference is heard if none with its plural was. -/
def hear (heard : List String × List Warning) (r : Reference) : List String × List Warning :=
  if r.plural ∈ heard.1 then heard else (r.plural :: heard.1, heard.2 ++ r.warning?.toList)

private theorem warnings_eq_foldl (references : List Reference) :
    warnings references = (references.foldl hear ([], [])).2 := rfl

/-- Whether plurals and warnings are those of some references: every plural is there, each with the
    warning of some reference, and no other warning is. -/
structure Heard (references : List Reference) (heard : List String × List Warning) : Prop where
  plural : ∀ r ∈ references, r.plural ∈ heard.1
  speaker : ∀ plural ∈ heard.1, ∃ r ∈ references, r.plural = plural ∧
    ∀ w, r.warning? = some w → w ∈ heard.2
  sound : ∀ w ∈ heard.2, ∃ r ∈ references, r.warning? = some w

private theorem Heard.concat {references : List Reference} {heard : List String × List Warning}
    (hheard : Heard references heard) (r : Reference) :
    Heard (references ++ [r]) (hear heard r) := by
  have hlater {p : Reference → Prop} : (∃ r ∈ references, p r) →
      ∃ r' ∈ references ++ [r], p r' :=
    fun ⟨r', hr', hp⟩ => ⟨r', List.mem_append_left _ hr', hp⟩
  have hself : r ∈ references ++ [r] := List.mem_append_right _ (List.mem_singleton_self r)
  unfold hear
  split
  · next hold =>
    refine ⟨fun r' hr' => ?_, fun plural hplural => hlater (hheard.speaker plural hplural),
      fun w hw => hlater (hheard.sound w hw)⟩
    rcases List.mem_append.mp hr' with hr' | hr'
    · exact hheard.plural r' hr'
    · exact List.mem_singleton.mp hr' ▸ hold
  · refine ⟨fun r' hr' => ?_, fun plural hplural => ?_, fun w hw => ?_⟩
    · rcases List.mem_append.mp hr' with hr' | hr'
      · exact List.mem_cons_of_mem _ (hheard.plural r' hr')
      · exact List.mem_singleton.mp hr' ▸ List.mem_cons_self
    · rcases List.mem_cons.mp hplural with rfl | hplural
      · exact ⟨r, hself, rfl, fun w hw => List.mem_append_right _ (by simp [hw])⟩
      · obtain ⟨r', hr', hsame, hspoken⟩ := hheard.speaker plural hplural
        exact ⟨r', List.mem_append_left _ hr', hsame,
          fun w hw => List.mem_append_left _ (hspoken w hw)⟩
    · rcases List.mem_append.mp hw with hw | hw
      · exact hlater (hheard.sound w hw)
      · exact ⟨r, hself, by simpa using hw⟩

private theorem heard_warnings (references : List Reference) :
    ∃ plurals, Heard references (plurals, warnings references) := by
  have hfold : Heard references (references.foldl hear ([], [])) := by
    induction references using List.reverseRecOn with
    | nil => exact ⟨List.forall_mem_nil _, List.forall_mem_nil _, List.forall_mem_nil _⟩
    | append_singleton rest r ih =>
      rw [List.foldl_append]
      exact ih.concat r
  refine ⟨(references.foldl hear ([], [])).1, ?_⟩
  rw [warnings_eq_foldl]
  exact hfold

end Reference

namespace Catalog

variable {catalog : Catalog}

/-- Whether a plural leads to no collection, neither by itself nor as a name for users. -/
structure Lacks (catalog : Catalog) (plural : String) : Prop where
  noUsers : plural ∉ catalog.users.aliases
  noCollection : plural ∉ catalog.collections

/-- What is said of a reference whose collection is missing. -/
def assumption (catalog : Catalog) (r : Reference) : Warning :=
  .assumedTarget r.field r.plural catalog.users.collection

private theorem target_of_resolve? {field : String} {r : Reference}
    (hresolve : catalog.resolve? field = some r) :
    catalog.target r.plural = (r.target, r.assumed) := by
  simp only [resolve?, Option.bind_eq_bind, Option.bind_eq_some_iff] at hresolve
  obtain ⟨⟨stem, cardinality⟩, -, hresolve⟩ := hresolve
  split at hresolve
  · cases hresolve
  · generalize htarget : catalog.target (Words.pluralize stem) = found at hresolve
    obtain ⟨target, assumed⟩ := found
    cases hresolve
    simpa only using htarget

/-- There is a warning for a reference exactly if its collection is missing. -/
theorem warning?_of_resolve? {field : String} {r : Reference}
    (hresolve : catalog.resolve? field = some r) {w : Warning} :
    r.warning? = some w ↔ catalog.Lacks r.plural ∧ w = catalog.assumption r := by
  have htarget := target_of_resolve? hresolve
  unfold target at htarget
  unfold Reference.warning? assumption
  split at htarget
  · next halias =>
    obtain ⟨-, hassumed⟩ := Prod.mk.inj htarget
    rw [← hassumed]
    exact iff_of_false (fun hw => by cases hw) fun hw => hw.1.noUsers halias
  · next halias =>
    split at htarget
    · next hcollection =>
      obtain ⟨-, hassumed⟩ := Prod.mk.inj htarget
      rw [← hassumed]
      exact iff_of_false (fun hw => by cases hw) fun hw => hw.1.noCollection hcollection
    · next hcollection =>
      obtain ⟨htarget, hassumed⟩ := Prod.mk.inj htarget
      rw [← hassumed, ← htarget, if_pos rfl, Option.some.injEq, eq_comm]
      exact (and_iff_right ⟨halias, hcollection⟩).symm

variable {relation : String}

/-- The warnings for a relation are of candidates whose collections are missing. -/
theorem exists_candidate_of_mem_warnings {w : Warning}
    (hw : w ∈ Reference.warnings (catalog.candidates relation)) :
    ∃ r ∈ catalog.candidates relation, catalog.Lacks r.plural ∧ w = catalog.assumption r := by
  obtain ⟨plurals, hheard⟩ := Reference.heard_warnings (catalog.candidates relation)
  obtain ⟨r, hr, hwarning⟩ := hheard.sound w hw
  exact ⟨r, hr, (warning?_of_resolve? (resolve?_of_mem_candidates hr)).mp hwarning⟩

/-- Every missing collection of a relation is named in a warning. -/
theorem exists_warning_of_mem_candidates {r : Reference} (hr : r ∈ catalog.candidates relation)
    (hlacks : catalog.Lacks r.plural) :
    ∃ field, .assumedTarget field r.plural catalog.users.collection ∈
      Reference.warnings (catalog.candidates relation) := by
  obtain ⟨plurals, hheard⟩ := Reference.heard_warnings (catalog.candidates relation)
  obtain ⟨speaker, hspeaker, hsame, hspoken⟩ := hheard.speaker r.plural (hheard.plural r hr)
  have hwarning :=
    (warning?_of_resolve? (resolve?_of_mem_candidates hspeaker)).mpr ⟨hsame ▸ hlacks, rfl⟩
  have hsaid := hspoken _ hwarning
  rw [assumption, hsame] at hsaid
  exact ⟨speaker.field, hsaid⟩

end Catalog

end DocQuery
