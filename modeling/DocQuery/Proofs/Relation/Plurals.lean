import DocQuery.Proofs.Relation.Candidates
import DocQuery.Proofs.Relation.Words

namespace DocQuery.Catalog

/-- A plural that was made of a word is the name of a relation, and not the field of a reference. -/
theorem stem?_pluralize {word : String} (hfield : ¬ "_id".toList <:+ word.toList)
    (hplural : Words.pluralize word ≠ word) : stem? (Words.pluralize word) = none := by
  have hids : "_ids".toList = "_i".toList ++ ['d', 's'] ∧
      "_ids".toList = "_id".toList ++ ['s'] := by decide
  have hid : "_id".toList = "_i".toList ++ ['d'] := by decide
  have hes : ∀ stem : String, (stem ++ "es").toList = stem.toList ++ ['e', 's'] ∧
      (stem ++ "es").toList = (stem ++ "e").toList ++ ['s'] := fun stem => by simp
  have hs : (word ++ "s").toList = word.toList ++ ['s'] := by simp
  have hapart : ∀ {front before letters last : List Char}, letters.length = last.length →
      letters ≠ last →
      ¬ front ++ letters <:+ before ++ last :=
    fun hlength hne hends => hne ((List.suffix_append_inj_of_length_eq hlength).mp hends).2
  rw [stem?_eq_none_iff]
  rcases Words.pluralize_cases hplural with ⟨stem, heq⟩ | heq
  · rw [heq]
    constructor
    · rw [hids.1, (hes stem).1]
      exact hapart (by decide) (by decide)
    · rw [hid, (hes stem).2]
      exact hapart (by decide) (by decide)
  · rw [heq, hs]
    constructor
    · rw [hids.2]
      exact fun hends => hfield ((List.suffix_append_inj_of_length_eq rfl).mp hends).1
    · rw [hid]
      exact hapart (by decide) (by decide)

/-- The two fields of a stem differ in how many targets they hold. -/
theorem resolve?_append (catalog : Catalog) {stem : String} (hstem : stem ≠ "") :
    catalog.resolve? (stem ++ "_id") =
        some ⟨stem ++ "_id", .single, (catalog.target (Words.pluralize stem)).1,
          (catalog.target (Words.pluralize stem)).2, Words.pluralize stem⟩ ∧
      catalog.resolve? (stem ++ "_ids") =
        some ⟨stem ++ "_ids", .many, (catalog.target (Words.pluralize stem)).1,
          (catalog.target (Words.pluralize stem)).2, Words.pluralize stem⟩ := by
  simp [resolve?, stem?_append_id, stem?_append_ids, hstem]

/-- The fields that a plural may be stored under include the one that holds many targets of a word
    exactly where the singular of the plural is the word. -/
theorem mem_fieldsOf_pluralize_iff {word : String} (hplural : Words.pluralize word ≠ word) :
    word ++ "_ids" ∈ fieldsOf (Words.pluralize word) ↔
      Words.singularize (Words.pluralize word) = word := by
  have hid : word ++ "_ids" ≠ Words.pluralize word ++ "_id" := by
    intro heq
    have hlast := congrArg (fun s => s.toList.getLast?) heq
    simp at hlast
  have hids : word ++ "_ids" ≠ Words.pluralize word ++ "_ids" :=
    fun heq => hplural ((String.append_left_inj "_ids").mp heq).symm
  unfold fieldsOf
  simp only [List.mem_append, List.mem_cons, hid, hids, List.not_mem_nil, false_or]
  split
  · next hkept =>
    rw [hkept]
    exact iff_of_false List.not_mem_nil hplural
  · rw [List.mem_singleton, String.append_left_inj, eq_comm]

/-- A relation that goes by the plural of a word may be stored in the field that is named after the
    word exactly where the word is regular, whatever the collections and the names for users are.
    The reference in that field leads to where the one in the field for a single target leads. -/
theorem exists_candidate_pluralize_iff (catalog : Catalog) {word : String} (hword : word ≠ "")
    (hfield : ¬ "_id".toList <:+ word.toList) (hplural : Words.pluralize word ≠ word) :
    ((∃ r ∈ catalog.candidates (Words.pluralize word), r.field = word ++ "_ids") ↔
      Words.IsRegular word) ∧
    ∃ single, catalog.resolve? (word ++ "_id") = some single ∧
      ∀ r ∈ catalog.candidates (Words.pluralize word), r.field = word ++ "_ids" →
        r.target = single.target := by
  obtain ⟨hsingle, hmany⟩ := catalog.resolve?_append hword
  have hcandidates : catalog.candidates (Words.pluralize word) =
      (fieldsOf (Words.pluralize word)).filterMap catalog.resolve? := by
    simp [candidates, resolve?, stem?_pluralize hfield hplural]
  refine ⟨?_, _, hsingle, fun r hr hrfield => ?_⟩
  · rw [← Words.singularize_pluralize_iff hplural,
      ← mem_fieldsOf_pluralize_iff hplural, hcandidates]
    constructor
    · rintro ⟨r, hr, hrfield⟩
      obtain ⟨field, hmem, hresolve⟩ := List.mem_filterMap.mp hr
      rwa [← hrfield, field_of_resolve? hresolve]
    · exact fun hmem => ⟨_, List.mem_filterMap.mpr ⟨_, hmem, hmany⟩, rfl⟩
  · have hresolve := resolve?_of_mem_candidates hr
    rw [hrfield, hmany] at hresolve
    cases hresolve
    rfl

/-- Categories are found in the field for many of them, whatever else there is. -/
theorem exists_candidate_pluralize_category :
    "category" ≠ "" ∧ ¬ "_id".toList <:+ "category".toList ∧
    Words.pluralize "category" ≠ "category" ∧
    ∃ r ∈ Catalog.candidates ⟨{}, ["categories"]⟩ (Words.pluralize "category"),
      r.field = "category_ids" ∧ r.target = ⟨.collection, "categories"⟩ := by
  have hplural : Words.pluralize "category" ≠ "category" := by decide
  have hregular : Words.IsRegular "category" := ⟨by decide, by decide, by decide⟩
  obtain ⟨hiff, single, hsingle, htarget⟩ :=
    exists_candidate_pluralize_iff ⟨{}, ["categories"]⟩ (by decide) (by decide) hplural
  obtain ⟨r, hr, hfield⟩ := hiff.mpr hregular
  have hcollection : (Catalog.resolve? ⟨{}, ["categories"]⟩ ("category" ++ "_id")).map
      Reference.target = some ⟨.collection, "categories"⟩ := by decide
  rw [hsingle, Option.map_some, Option.some.injEq] at hcollection
  exact ⟨by decide, by decide, hplural, r, hr, hfield, (htarget r hr hfield).trans hcollection⟩

/-- Statuses are looked for in a field that nobody names so. -/
theorem not_exists_candidate_statuses :
    "status" ≠ "" ∧ ¬ "_id".toList <:+ "status".toList ∧
    ¬ "_ids".toList <:+ "status".toList ∧
    Words.pluralize "status" ≠ "status" ∧
    ¬ ∃ r ∈ Catalog.candidates ⟨{}, ["statuses"]⟩ (Words.pluralize "status"),
      r.field = "status_ids" := by
  refine ⟨by decide, by decide, by decide, by decide, ?_⟩
  decide

end DocQuery.Catalog
