import DocQuery.Document.Basic
import DocQuery.Proofs.Text.Pieces
import DocQuery.Relation.Catalog

namespace DocQuery.Catalog

/-- A reference is held by the field that it was told from. -/
theorem field_of_resolve? {catalog : Catalog} {field : String} {r : Reference}
    (hresolve : catalog.resolve? field = some r) : r.field = field := by
  simp only [resolve?, Option.bind_eq_bind, Option.bind_eq_some_iff] at hresolve
  obtain ⟨⟨stem, cardinality⟩, -, hresolve⟩ := hresolve
  split at hresolve
  · cases hresolve
  · cases hresolve
    rfl

/-- A candidate is what its field says by its name. -/
theorem resolve?_of_mem_candidates {catalog : Catalog} {relation : String} {r : Reference}
    (hr : r ∈ catalog.candidates relation) : catalog.resolve? r.field = some r := by
  unfold candidates at hr
  split at hr
  · next reference hresolve =>
    obtain rfl := List.mem_singleton.mp hr
    rw [field_of_resolve? hresolve, hresolve]
  · obtain ⟨field, -, hresolve⟩ := List.mem_filterMap.mp hr
    rw [field_of_resolve? hresolve, hresolve]

/-- The fields for the id and the instants are no references. -/
theorem field?_of_resolve? {catalog : Catalog} {field : String} {r : Reference}
    (hresolve : catalog.resolve? field = some r) (d : Document) :
    d.field? field = Entries.get? field d.data := by
  have hnever : ∀ reserved, stem? reserved = none → field ≠ reserved := by
    rintro reserved hstem rfl
    rw [resolve?, hstem] at hresolve
    cases hresolve
  unfold Document.field?
  rw [if_neg (hnever _ (by decide)), if_neg (hnever _ (by decide)), if_neg (hnever _ (by decide))]

/-- No reference is held by the id or by an instant, so its field is read from the data. -/
theorem field?_of_mem_candidates {catalog : Catalog} {relation : String} {r : Reference}
    (hr : r ∈ catalog.candidates relation) (d : Document) :
    d.field? r.field = Entries.get? r.field d.data :=
  field?_of_resolve? (resolve?_of_mem_candidates hr) d

/-- A name without an ending of references has no stem. -/
theorem stem?_eq_none_iff {field : String} :
    stem? field = none ↔ ¬ "_ids".toList <:+ field.toList ∧
      ¬ "_id".toList <:+ field.toList := by
  unfold stem?
  rw [← Text.dropEnd?_eq_none_iff, ← Text.dropEnd?_eq_none_iff]
  cases Text.dropEnd? "_ids" field <;> simp

theorem stem?_append_id (stem : String) : stem? (stem ++ "_id") = some (stem, .single) := by
  have hmany : Text.dropEnd? "_ids" (stem ++ "_id") = none := by
    refine Option.eq_none_iff_forall_ne_some.mpr fun rest hrest => ?_
    have hchars := congrArg (fun s => s.toList.getLast?) (Text.dropEnd?_eq_some_iff.mp hrest)
    simp at hchars
  rw [stem?, hmany, Text.dropEnd?_eq_some_iff.mpr rfl]
  rfl

theorem stem?_append_ids (stem : String) : stem? (stem ++ "_ids") = some (stem, .many) := by
  rw [stem?, Text.dropEnd?_eq_some_iff.mpr rfl]

/-- A relation with a name may be stored under that name with the ending of a single reference. -/
theorem candidates_ne_nil (catalog : Catalog) {relation : String} (hrelation : relation ≠ "") :
    catalog.candidates relation ≠ [] := by
  obtain ⟨r, hr⟩ : ∃ r, catalog.resolve? (relation ++ "_id") = some r := by
    simp [resolve?, stem?_append_id, hrelation]
  unfold candidates
  split
  · exact List.cons_ne_nil _ _
  · intro hnil
    have hnone := List.filterMap_eq_nil_iff.mp hnil (relation ++ "_id") (by simp [fieldsOf])
    rw [hr] at hnone
    cases hnone

end DocQuery.Catalog
