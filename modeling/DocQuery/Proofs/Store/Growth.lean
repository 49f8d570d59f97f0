import DocQuery.Proofs.Steps
import DocQuery.Proofs.Store.Contents
import Mathlib.Data.List.Forall2

namespace DocQuery

namespace Documents

/-- Whether the ids of several documents are distinct, and none of them is taken. -/
structure IsFree (present : Documents) (added : List Document) : Prop where
  distinct : (added.map Document.id).Nodup
  untaken : ∀ d ∈ added, Entries.get? d.id present = none

/-- Whether a collection holds what it held before and the added documents, and nothing else. -/
structure Extends (present : Documents) (collection : String) (added : List Document)
    (held : Documents) : Prop where
  stored : ∀ d ∈ added, Entries.get? d.id held = some { d with collection }
  others : ∀ id, id ∉ added.map Document.id → Entries.get? id held = Entries.get? id present

/-- How inserting documents goes: all of them are added, or those before the first whose id is
    taken, by the collection or by one of them. -/
inductive Inserts (present : Documents) (collection : String) :
    List Document → Documents → Except Failure Unit → Prop where
  | all {added : List Document} {held : Documents} (free : present.IsFree added)
      (contents : present.Extends collection added held) :
      Inserts present collection added held (.ok ())
  | upTo {before : List Document} {d : Document} (after : List Document) {held : Documents}
      (free : present.IsFree before)
      (taken : d.id ∈ before.map Document.id ∨ (Entries.get? d.id present).isSome)
      (contents : present.Extends collection before held) :
      Inserts present collection (before ++ d :: after) held (.error (.duplicateId d.id collection))

variable {present held : Documents} {collection : String}
  {added before rest : List Document} {d : Document}

private theorem isFree_nil (present : Documents) : present.IsFree [] :=
  ⟨List.nodup_nil, by simp⟩

/-- Whether ids are free does not depend on the order of the documents. -/
theorem IsFree.perm {reordered : List Document} (hfree : present.IsFree added)
    (hperm : reordered.Perm added) : present.IsFree reordered where
  distinct := (hperm.map Document.id).nodup_iff.mpr hfree.distinct
  untaken := fun d hd => hfree.untaken d (hperm.mem_iff.mp hd)

private theorem not_isFree_iff : ¬ present.IsFree added ↔
    ¬ (added.map Document.id).Nodup ∨ ∃ d ∈ added, (Entries.get? d.id present).isSome := by
  have hfree : present.IsFree added ↔
      (added.map Document.id).Nodup ∧ ∀ d ∈ added, Entries.get? d.id present = none :=
    ⟨fun h => ⟨h.distinct, h.untaken⟩, fun h => ⟨h.1, h.2⟩⟩
  simp only [hfree, Classical.not_and_iff_not_or_not, not_forall, exists_prop,
    ← Option.isSome_iff_ne_none]

/-- Once a document is in its place, its id is taken for those after it. -/
theorem isFree_insert_iff (hd : Entries.get? d.id present = none) (value : Document) :
    IsFree (Entries.insert d.id value present) rest ↔ present.IsFree (d :: rest) := by
  constructor
  · rintro ⟨hdistinct, huntaken⟩
    have hrest : ∀ e ∈ rest, d.id ≠ e.id ∧ Entries.get? e.id present = none := by
      intro e he
      have hnone := huntaken e he
      rw [Entries.get?_insert] at hnone
      split at hnone
      · cases hnone
      · next hne => exact ⟨hne, hnone⟩
    refine ⟨List.nodup_cons.mpr ⟨fun hmem => ?_, hdistinct⟩, ?_⟩
    · obtain ⟨e, he, heq⟩ := List.mem_map.mp hmem
      exact (hrest e he).1 heq.symm
    · exact List.forall_mem_cons.mpr ⟨hd, fun e he => (hrest e he).2⟩
  · rintro ⟨hdistinct, huntaken⟩
    obtain ⟨hnew, hdistinct⟩ := List.nodup_cons.mp hdistinct
    refine ⟨hdistinct, fun e he => ?_⟩
    have hne : d.id ≠ e.id := fun heq => hnew (heq ▸ List.mem_map_of_mem he)
    rw [Entries.get?_insert, if_neg hne]
    exact huntaken e (List.mem_cons_of_mem d he)

private theorem Extends.cons (hnew : d.id ∉ rest.map Document.id)
    (hrest : Extends (Entries.insert d.id { d with collection } present) collection rest held) :
    present.Extends collection (d :: rest) held where
  stored := by
    refine List.forall_mem_cons.mpr ⟨?_, hrest.stored⟩
    rw [hrest.others d.id hnew, Entries.get?_insert, if_pos rfl]
  others := by
    intro id hid
    rw [List.map_cons, List.mem_cons, not_or] at hid
    rw [hrest.others id hid.2, Entries.get?_insert, if_neg (Ne.symm hid.1)]

/-- What a collection holds does not depend on the order in which documents were added. -/
theorem Extends.get?_eq_of_perm {reordered : List Document} {other : Documents}
    (hextends : present.Extends collection added held)
    (hreordered : present.Extends collection reordered other) (hperm : reordered.Perm added)
    (id : String) :
    Entries.get? id other = Entries.get? id held := by
  by_cases hid : id ∈ added.map Document.id
  · obtain ⟨d, hd, rfl⟩ := List.mem_map.mp hid
    rw [hextends.stored d hd, hreordered.stored d (hperm.mem_iff.mpr hd)]
  · rw [hextends.others id hid, hreordered.others id (mt (hperm.map Document.id).mem_iff.mp hid)]

/-- Adding documents with free ids changes and removes none. -/
theorem Extends.kept (hextends : present.Extends collection added held)
    (hfree : present.IsFree added) {id : String} (hget : Entries.get? id present = some d) :
    Entries.get? id held = some d := by
  have hnew : id ∉ added.map Document.id := by
    intro hmem
    obtain ⟨e, he, rfl⟩ := List.mem_map.mp hmem
    rw [hfree.untaken e he] at hget
    cases hget
  rw [hextends.others id hnew, hget]

namespace Inserts

variable {result : Except Failure Unit}

private theorem kept (hinserts : present.Inserts collection added held result) {id : String}
    (hget : Entries.get? id present = some d) : Entries.get? id held = some d := by
  cases hinserts with
  | all free contents => exact contents.kept free hget
  | upTo after free taken contents => exact contents.kept free hget

/-- Inserting fails exactly when some id is taken. -/
theorem error_iff (hinserts : present.Inserts collection added held result) :
    (∃ failure, result = .error failure) ↔ ¬ present.IsFree added := by
  cases hinserts with
  | all free contents => simp [free]
  | @upTo before d after _ free taken contents =>
    refine iff_of_true ⟨_, rfl⟩ fun hall => ?_
    rcases taken with hmem | hsome
    · have hdistinct := hall.distinct
      rw [List.map_append, List.nodup_append] at hdistinct
      exact hdistinct.2.2 d.id hmem d.id List.mem_cons_self rfl
    · rw [hall.untaken d (List.mem_append_right before List.mem_cons_self)] at hsome
      cases hsome

/-- Documents with free ids are all added. -/
theorem extends_of_isFree (hinserts : present.Inserts collection added held result)
    (hfree : present.IsFree added) : present.Extends collection added held := by
  have hnone := mt hinserts.error_iff.mp (not_not.mpr hfree)
  cases hinserts with
  | all _ contents => exact contents
  | upTo => exact absurd ⟨_, rfl⟩ hnone

/-- A document whose id is free goes before whatever is inserted after it. -/
theorem cons (hd : Entries.get? d.id present = none)
    (hrest : Inserts (Entries.insert d.id { d with collection } present)
      collection rest held result) :
    present.Inserts collection (d :: rest) held result := by
  cases hrest with
  | all free contents =>
    have hfree := (isFree_insert_iff hd _).mp free
    exact .all hfree (.cons (List.nodup_cons.mp hfree.distinct).1 contents)
  | @upTo before e after _ free taken contents =>
    have hfree := (isFree_insert_iff hd _).mp free
    rw [← List.cons_append]
    refine .upTo after hfree ?_ (.cons (List.nodup_cons.mp hfree.distinct).1 contents)
    rw [Entries.get?_insert] at taken
    rw [List.map_cons, List.mem_cons]
    by_cases heq : d.id = e.id
    · exact .inl (.inl heq.symm)
    · rw [if_neg heq] at taken
      exact taken.imp_left .inr

end Inserts

end Documents

namespace Store

/-- Documents are added one by one, each to what the ones before it have left. -/
theorem inserts_addDocuments (collection : String) (added : List Document) (present : Documents) :
    present.Inserts collection added (addDocuments collection added present).1
      (addDocuments collection added present).2 := by
  induction added generalizing present with
  | nil => exact .all present.isFree_nil ⟨by simp, fun _ _ => rfl⟩
  | cons d rest ih =>
    rw [addDocuments]
    split
    · next htaken =>
      have hnothing : present.Extends collection [] present := ⟨by simp, fun _ _ => rfl⟩
      exact .upTo rest present.isFree_nil (.inr htaken) hnothing
    · next hfree => exact .cons (Option.not_isSome_iff_eq_none.mp hfree) (ih _)

/-- Inserting adds to the documents of the collection one by one. -/
theorem documents_insert_self (collection : String) (added : List Document) (s : Store) :
    (s.insert collection added).1.documents collection =
      (addDocuments collection added (s.documents collection)).1 := by
  simp only [insert, documents_insert, if_true]

/-- The collection that a change is for. -/
def Change.collection : Change → String
  | .create collection | .insert collection _ | .insertJson collection _ => collection

private theorem get?_insert_of_ne {collection name : String} (hne : collection ≠ name)
    (added : List Document) (s : Store) :
    Entries.get? name (s.insert collection added).1.collections =
      Entries.get? name s.collections := by
  simp only [insert, Entries.get?_insert, if_neg hne]

private theorem get?_apply_of_ne {change : Change} {name : String}
    (hne : change.collection ≠ name) (s : Store) :
    Entries.get? name (change.apply s).1.collections = Entries.get? name s.collections := by
  cases change with
  | create collection => exact (Entries.get?_insert ..).trans (if_neg hne)
  | insert collection added => exact get?_insert_of_ne hne added s
  | insertJson collection values =>
    simp only [Change.apply, insertJson]
    split
    · rfl
    · exact get?_insert_of_ne hne _ s

private theorem find?_insert_of_some {s : Store} {name id : String} {d : Document}
    (hfind : s.find? name id = some d) (collection : String) (added : List Document) :
    (s.insert collection added).1.find? name id = some d := by
  by_cases heq : collection = name
  · subst heq
    rw [find?, documents_insert_self]
    exact (inserts_addDocuments collection added _).kept hfind
  · rw [find?, documents, get?_insert_of_ne heq]
    exact hfind

/-- A change leaves every document that is there as it is. -/
theorem find?_apply_of_some {s : Store} {name id : String} {d : Document}
    (hfind : s.find? name id = some d) (change : Change) :
    (change.apply s).1.find? name id = some d := by
  cases change with
  | create collection =>
    simp only [Change.apply, create, find?, documents_insert]
    split
    · next heq =>
      subst heq
      exact hfind
    · exact hfind
  | insert collection added => exact find?_insert_of_some hfind collection added
  | insertJson collection values =>
    simp only [Change.apply, insertJson]
    split
    · exact hfind
    · exact find?_insert_of_some hfind collection _

section History

variable {s : Store} (changes : List Change)

/-- Changes of other collections leave a collection as it is. -/
theorem get?_applyAll_of_ne {name : String}
    (hne : ∀ change ∈ changes, change.collection ≠ name) :
    Entries.get? name (Change.applyAll s changes).collections =
      Entries.get? name s.collections := by
  induction changes generalizing s with
  | nil => rfl
  | cons change rest ih =>
    obtain ⟨hfirst, hrest⟩ := List.forall_mem_cons.mp hne
    exact (ih hrest).trans (get?_apply_of_ne hfirst s)

/-- What is found stays, whatever changes follow. -/
theorem find?_applyAll_of_some {name id : String} {d : Document}
    (hfind : s.find? name id = some d) :
    (Change.applyAll s changes).find? name id = some d := by
  induction changes generalizing s with
  | nil => exact hfind
  | cons change rest ih => exact ih (find?_apply_of_some hfind change)

end History

section Values

variable {collection : String} {values : List (Json × Fresh)}

/-- The first value that is no document says why none of the batch is inserted. -/
theorem readDocuments_eq_error_iff {failure : Failure} :
    readDocuments collection values = .error failure ↔
      ∃ cause, .invalidDocument cause = failure ∧
      IsFirstFault (fun entry cause => Document.ofJson collection entry.1 entry.2 = .error cause)
        values cause := by
  have hread : readDocuments collection values = values.mapM fun entry =>
      (Document.ofJson collection entry.1 entry.2).mapError .invalidDocument := rfl
  rw [hread, mapM_eq_error_iff]
  simp only [mapError_eq_error_iff, isFirstFault_wording_iff]

private theorem readDocuments_eq_ok_iff {added : List Document} :
    readDocuments collection values = .ok added ↔
      List.Forall₂
        (fun entry d => Document.ofJson collection entry.1 entry.2 = .ok d) values added := by
  have hread : readDocuments collection values = values.mapM fun entry =>
      (Document.ofJson collection entry.1 entry.2).mapError .invalidDocument := rfl
  rw [hread, mapM_eq_ok_iff]
  simp only [mapError_eq_ok_iff]

end Values

/-- Changes only add documents. In a store that can be reached, every document stands under its own
    id in the collection that it names; whatever changes follow, failed ones included, it stays as
    it is, and collections that they are not for stay altogether. Inserting fails exactly when an id
    repeats or is taken, and then adds the documents before the first of these. When a value is no
    document, the first such value says why, and the store is the one from before; otherwise the
    documents are inserted. -/
theorem changes_only_add {s : Store} (reached : s.Reachable) :
    s.Filed ∧
    (∀ changes name id d, s.find? name id = some d →
      (Change.applyAll s changes).find? name id = some d) ∧
    (∀ changes name, (∀ change ∈ changes, change.collection ≠ name) →
      Entries.get? name (Change.applyAll s changes).collections =
        Entries.get? name s.collections) ∧
    (∀ collection, Entries.get? collection (s.create collection).collections =
      some (s.documents collection)) ∧
    (∀ collection added,
      (s.documents collection).Inserts collection added
        ((s.insert collection added).1.documents collection) (s.insert collection added).2 ∧
      ((∃ failure, (s.insert collection added).2 = .error failure) ↔
        ¬ (added.map Document.id).Nodup ∨ ∃ d ∈ added, (s.find? collection d.id).isSome)) ∧
    ∀ collection values,
      ((∃ entry ∈ values, ∃ cause,
        Document.ofJson collection entry.1 entry.2 = .error cause) →
        ∃ cause, s.insertJson collection values = (s, .error (.invalidDocument cause)) ∧
          IsFirstFault
            (fun entry cause => Document.ofJson collection entry.1 entry.2 = .error cause)
            values cause) ∧
      ∀ added, List.Forall₂
        (fun entry d => Document.ofJson collection entry.1 entry.2 = .ok d) values added →
        s.insertJson collection values = s.insert collection added := by
  refine ⟨reached.filed, fun changes name id d => find?_applyAll_of_some changes,
    fun changes name => get?_applyAll_of_ne changes, fun collection => ?_,
    fun collection added => ?_,
    fun collection values => ⟨fun hrejected => ?_, fun added hread => ?_⟩⟩
  · exact (Entries.get?_insert ..).trans (if_pos rfl)
  · have hinserts := inserts_addDocuments collection added (s.documents collection)
    rw [documents_insert_self]
    exact ⟨hinserts, hinserts.error_iff.trans Documents.not_isFree_iff⟩
  · obtain ⟨cause, hfirst⟩ := exists_isFirstFault_iff.mpr hrejected
    have hread := readDocuments_eq_error_iff.mpr ⟨cause, rfl, hfirst⟩
    exact ⟨cause, by rw [insertJson, hread], hfirst⟩
  · rw [insertJson, readDocuments_eq_ok_iff.mpr hread]

/-- Two new posts, and between them one whose id the first has taken. -/
def sampleBatch : List Document :=
  [⟨"p4", "drafts", [], .epoch, .epoch⟩,
    ⟨"p4", "posts", [("title", .str "again")], .epoch, .epoch⟩,
    ⟨"p5", "posts", [], .epoch, .epoch⟩]

/-- The first post of the batch is inserted, and the one that was there before is still found. -/
theorem insert_sampleBatch_stops :
    sample.Reachable ∧ (∃ failure, (sample.insert "posts" sampleBatch).2 = .error failure) ∧
      (sample.insert "posts" sampleBatch).1.find? "posts" "p1" = some samplePost := by
  obtain ⟨-, hkept, -, -, hinsert, -⟩ := changes_only_add reachable_sample
  refine ⟨reachable_sample, (hinsert "posts" sampleBatch).2.mpr (.inl (by decide)), ?_⟩
  exact hkept [.insert "posts" sampleBatch] "posts" "p1" samplePost (by decide)

end Store

end DocQuery
