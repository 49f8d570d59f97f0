import DocQuery.Proofs.Store.Growth
import DocQuery.Proofs.Store.Matching

namespace DocQuery

/-- A stable sort keeps the order of the elements that are alike with a given one. They are a part
    of the list that is in order already, and no others can stand among them. -/
theorem filter_mergeSort_of_alike {α : Type} {cmp : α → α → Ordering} [Std.TransCmp cmp]
    (a : α) (l : List α) :
    (l.mergeSort fun b c => (cmp b c).isLE).filter (fun b => cmp a b == .eq) =
      l.filter fun b => cmp a b == .eq := by
  have halike : (l.filter fun b => cmp a b == .eq).Pairwise fun b c => (cmp b c).isLE = true := by
    refine List.pairwise_of_forall_mem_list fun b hb c hc => ?_
    have hab : cmp a b = .eq := by simpa using (List.mem_filter.mp hb).2
    have hac : cmp a c = .eq := by simpa using (List.mem_filter.mp hc).2
    rw [← Std.TransCmp.congr_left hab, hac]
    rfl
  have hpart := List.sublist_mergeSort (fun b c d => Std.TransCmp.isLE_trans) isLE_or_isLE halike
    List.filter_sublist
  have hkept := hpart.filter fun b => cmp a b == .eq
  rw [List.filter_filter] at hkept
  simp only [Bool.and_self] at hkept
  exact (hkept.eq_of_length (((List.mergeSort_perm l _).filter _).length_eq).symm).symm

namespace Document

/-- Whether a document comes before another in the order of several keys, and by its id where no key
    tells them apart. -/
def ComesBefore (keys : List SortKey) (a b : Document) : Prop :=
  order keys a b = .lt ∨ order keys a b = .eq ∧ a.id < b.id

instance (keys : List SortKey) (a b : Document) : Decidable (a.ComesBefore keys b) :=
  inferInstanceAs (Decidable (_ ∨ _))

theorem ComesBefore.asymm {keys : List SortKey} {a b : Document} (hab : a.ComesBefore keys b) :
    ¬ b.ComesBefore keys a := by
  have hswap : order keys b a = (order keys a b).swap := Std.OrientedCmp.eq_swap
  unfold ComesBefore at hab ⊢
  rw [hswap]
  rcases hab with hlt | ⟨heq, hid⟩
  · rw [hlt]
    rintro (hgt | ⟨hgt, -⟩) <;> cases hgt
  · rw [heq]
    rintro (hlt | ⟨-, hid'⟩)
    · cases hlt
    · exact String.lt_asymm hid hid'

end Document

namespace Store

/-- What a scan finds is in the strict order of its keys and the ids. -/
theorem Filed.pairwise_matching {s : Store} (hs : s.Filed) (collection : String) (wanted : Scan) :
    (s.matching collection wanted).Pairwise (Document.ComesBefore wanted.sort) := by
  refine List.pairwise_iff_forall_sublist.mpr fun {a b} hsub => ?_
  have hle := List.pairwise_iff_forall_sublist.mp (s.pairwise_matching collection wanted) hsub
  cases horder : Document.order wanted.sort a b with
  | lt => exact .inl horder
  | gt => simp [horder] at hle
  | eq =>
    refine .inr ⟨horder, ?_⟩
    have halike := hsub.filter fun c => Document.order wanted.sort a c == .eq
    rw [matching_eq_mergeSort, filter_mergeSort_of_alike] at halike
    have hself : Document.order wanted.sort a a = .eq := Std.ReflCmp.compare_self
    simp only [List.filter_cons, hself, horder, beq_self_eq_true, if_true,
      List.filter_nil] at halike
    exact List.pairwise_iff_forall_sublist.mp (hs.pairwise_accepted collection wanted.filter)
      (halike.trans List.filter_sublist)

/-- Stores that find the same documents in a collection hold it alike, as both file it by ids. -/
theorem Filed.documents_eq {s t : Store} (hs : s.Filed) (ht : t.Filed) {collection : String}
    (hsame : ∀ id, t.find? collection id = s.find? collection id) :
    t.documents collection = s.documents collection := by
  refine (ht.documents collection).ascending.ext (hs.documents collection).ascending ?_
  rintro ⟨id, d⟩
  rw [← ht.find?_eq_some_iff, ← hs.find?_eq_some_iff, hsame]

private theorem scan_eq_of_documents_eq {s t : Store} {collection : String}
    (hsame : t.documents collection = s.documents collection) (wanted : Scan) :
    t.scan collection wanted = s.scan collection wanted := by
  unfold scan matching
  rw [hsame]

/-- Documents with new ids may be inserted in any order. -/
theorem find?_insert_of_perm {s : Store} {collection : String} {added reordered : List Document}
    (hfree : (s.documents collection).IsFree added) (hperm : reordered.Perm added) (id : String) :
    (s.insert collection reordered).1.find? collection id =
      (s.insert collection added).1.find? collection id := by
  have hadded := (inserts_addDocuments collection added _).extends_of_isFree hfree
  have hreordered :=
    (inserts_addDocuments collection reordered _).extends_of_isFree (hfree.perm hperm)
  rw [find?, find?, documents_insert_self, documents_insert_self]
  exact hadded.get?_eq_of_perm hreordered hperm id

/-- Values, and documents by any keys, compare as a total preorder does. A scan of all that a filter
    accepts is the one list of these documents in which each comes before those after it, by the
    keys and then by the id. So stores that hold the same documents in a collection find the same
    there, in whatever order the documents were inserted. -/
theorem scan_is_unique {s : Store} (reached : s.Reachable) :
    Std.TransCmp Json.order ∧ (∀ keys, Std.TransCmp (Document.order keys)) ∧
    ∀ (collection : String) (filter : Option Predicate) (keys : List SortKey) (countTotal : Bool),
      let found := s.scan collection ⟨filter, keys, none, 0, countTotal⟩
      found.documents.Perm (s.accepted collection filter) ∧
      found.documents.Pairwise (Document.ComesBefore keys) ∧
      (∀ other : List Document, other.Perm (s.accepted collection filter) →
        other.Pairwise (Document.ComesBefore keys) → other = found.documents) ∧
      (∀ t : Store, t.Reachable → (∀ id, t.find? collection id = s.find? collection id) →
        t.scan collection ⟨filter, keys, none, 0, countTotal⟩ = found) ∧
      ∀ added reordered : List Document, (s.documents collection).IsFree added →
        reordered.Perm added →
        (s.insert collection reordered).1.scan collection ⟨filter, keys, none, 0, countTotal⟩ =
          (s.insert collection added).1.scan collection
            ⟨filter, keys, none, 0, countTotal⟩ := by
  have hs := reached.filed
  refine ⟨inferInstance, fun keys => inferInstance, fun collection filter keys countTotal => ?_⟩
  intro found
  have hperm : found.documents.Perm (s.accepted collection filter) :=
    s.matching_perm collection ⟨filter, keys, none, 0, countTotal⟩
  have hsorted : found.documents.Pairwise (Document.ComesBefore keys) :=
    hs.pairwise_matching collection ⟨filter, keys, none, 0, countTotal⟩
  refine ⟨hperm, hsorted, fun other hother hordered => ?_, fun t ht hsame => ?_,
    fun added reordered hfree hreordered => ?_⟩
  · exact List.Perm.eq_of_pairwise (fun _ _ _ _ hab hba => absurd hba hab.asymm) hordered hsorted
      (hother.trans hperm.symm)
  · exact scan_eq_of_documents_eq (hs.documents_eq ht.filed hsame) _
  · have hinserted : ∀ docs, (s.insert collection docs).1.Filed := fun docs =>
      (reached.step (.insert collection docs)).filed
    exact scan_eq_of_documents_eq ((hinserted added).documents_eq (hinserted reordered)
      (find?_insert_of_perm hfree hreordered)) _

/-- Two drafts and one that has no rank. -/
def sampleDrafts : List Document :=
  [⟨"d1", "drafts", [("rank", .num (.int 2 (by decide)))], .epoch, .epoch⟩,
    ⟨"d2", "drafts", [("rank", .str "2")], .epoch, .epoch⟩,
    ⟨"d3", "drafts", [], .epoch, .epoch⟩]

/-- By descending ranks a text stands before a number, and a missing rank after both. The drafts are
    found so also when they were inserted the other way round. -/
theorem scan_is_unique_sample_drafts :
    (Store.empty.insert "drafts" sampleDrafts).1.Reachable ∧
      (Store.empty.documents "drafts").IsFree sampleDrafts ∧
      sampleDrafts.reverse.Perm sampleDrafts ∧
      ((Store.empty.insert "drafts" sampleDrafts.reverse).1.scan "drafts"
        ⟨none, [⟨"rank", .descending⟩], none, 0, true⟩).documents.map Document.id =
          ["d2", "d1", "d3"] := by
  have hreached : (Store.empty.insert "drafts" sampleDrafts).1.Reachable :=
    Reachable.empty.step (.insert "drafts" sampleDrafts)
  have hfree : (Store.empty.documents "drafts").IsFree sampleDrafts := ⟨by decide, by decide⟩
  have hperm : sampleDrafts.reverse.Perm sampleDrafts := List.reverse_perm _
  have hreordered :=
    (scan_is_unique Reachable.empty).2.2 "drafts" none [⟨"rank", .descending⟩] true
  obtain ⟨-, -, hunique, -⟩ :=
    (scan_is_unique hreached).2.2 "drafts" none [⟨"rank", .descending⟩] true
  have hfound := hunique (["d2", "d1", "d3"].filterMap fun id =>
      (Store.empty.insert "drafts" sampleDrafts).1.find? "drafts" id)
    (by decide +kernel) (by decide +kernel)
  refine ⟨hreached, hfree, hperm, ?_⟩
  rw [hreordered.2.2.2.2 sampleDrafts sampleDrafts.reverse hfree hperm, ← hfound]
  decide +kernel

end Store

end DocQuery
