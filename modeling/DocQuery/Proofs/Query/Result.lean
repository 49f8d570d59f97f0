import DocQuery.Engine.Basic
import DocQuery.Proofs.Store.Matching

namespace DocQuery.Query

/-- Whether one document comes before another in the order that a query asks for: by the field, and
    by ascending ids where the field does not tell them apart. Without a field, or with the id for
    it, documents stand by their ids in the direction of the query. -/
def Precedes (q : Query) (a b : Document) : Prop :=
  if q.sort.getD Document.idField = Document.idField then
    match q.direction with
    | .ascending => a.id < b.id
    | .descending => b.id < a.id
  else
    let byField := SortKey.order ⟨q.sort.getD Document.idField, q.direction⟩ a b
    byField = .lt ∨ byField = .eq ∧ a.id < b.id

/-- Whether a list is the result of a query: all documents of the collection that the predicate
    accepts, in the order of the query. -/
structure IsResult (q : Query) (s : Store) (predicate : Option Predicate) (all : List Document) :
    Prop where
  perm : all.Perm (s.accepted q.collection predicate)
  ordered : all.Pairwise q.Precedes

private theorem sortKeys_eq (q : Query) : q.sortKeys =
    if q.sort.getD Document.idField = Document.idField then [⟨Document.idField, q.direction⟩]
    else [⟨q.sort.getD Document.idField, q.direction⟩, ⟨Document.idField, .ascending⟩] := by
  unfold sortKeys
  cases q.sort <;> rfl

/-- The keys of a query put documents strictly in the order that the query asks for. -/
theorem order_eq_lt_iff {q : Query} {a b : Document} :
    Document.order q.sortKeys a b = .lt ↔ q.Precedes a b := by
  rw [sortKeys_eq]
  unfold Precedes
  split
  · next hid =>
    simp only [Document.order, Document.order_idField, Ordering.then_eq]
    cases q.direction <;> exact compareOfLessAndEq_eq_lt
  · next hid =>
    simp only [Document.order, Document.order_idField, Ordering.then_eq, Ordering.then_eq_lt]
    exact or_congr_right (and_congr_right fun _ => compareOfLessAndEq_eq_lt)

theorem Precedes.asymm {q : Query} {a b : Document} (hab : q.Precedes a b) : ¬ q.Precedes b a := by
  intro hba
  have hlt := order_eq_lt_iff.mpr hab
  rw [Std.OrientedCmp.gt_of_lt (order_eq_lt_iff.mpr hba)] at hlt
  cases hlt

/-- A query has one result only. -/
theorem IsResult.unique {q : Query} {s : Store} {predicate : Option Predicate}
    {all other : List Document} (hall : q.IsResult s predicate all)
    (hother : q.IsResult s predicate other) : all = other :=
  List.Perm.eq_of_pairwise (fun _ _ _ _ hab hba => absurd hba hab.asymm) hall.ordered hother.ordered
    (hall.perm.trans hother.perm.symm)

/-- Documents that no key of a query tells apart have one id. -/
theorem id_eq_of_order_eq_eq {q : Query} {a b : Document}
    (heq : Document.order q.sortKeys a b = .eq) :
    a.id = b.id := by
  rw [sortKeys_eq] at heq
  split at heq
  · simp only [Document.order, Document.order_idField, Ordering.then_eq] at heq
    cases hdirection : q.direction <;> rw [hdirection] at heq
    · exact Std.LawfulEqOrd.eq_of_compare heq
    · exact (Std.LawfulEqOrd.eq_of_compare heq).symm
  · simp only [Document.order, Document.order_idField, Ordering.then_eq,
      Ordering.then_eq_eq] at heq
    exact Std.LawfulEqOrd.eq_of_compare heq.2

/-- What a scan for the query finds, from its first document to its last. -/
def result (q : Query) (s : Store) (predicate : Option Predicate) : List Document :=
  (s.accepted q.collection predicate).mergeSort fun a b => (Document.order q.sortKeys a b).isLE

/-- What a scan finds is the result of the query, whatever page it is for. -/
theorem matching_eq_result (q : Query) (s : Store) (config : Config)
    (predicate : Option Predicate) :
    s.matching q.collection (q.scan config predicate) = q.result s predicate :=
  s.matching_eq_mergeSort q.collection (q.scan config predicate)

/-- No document is in the result twice. -/
theorem nodup_result {s : Store} (hs : s.Filed) (q : Query) (predicate : Option Predicate) :
    ((q.result s predicate).map Document.id).Nodup :=
  ((List.mergeSort_perm _ _).map Document.id).nodup_iff.mpr
    (hs.nodup_accepted q.collection predicate)

/-- What a scan finds is in the strict order that the query asks for, as no two ids are the same. -/
theorem isResult_result {s : Store} (hs : s.Filed) (q : Query) (predicate : Option Predicate) :
    q.IsResult s predicate (q.result s predicate) where
  perm := List.mergeSort_perm _ _
  ordered := by
    have hsorted : (q.result s predicate).Pairwise fun a b =>
        (Document.order q.sortKeys a b).isLE :=
      q.matching_eq_result s {} predicate ▸ s.pairwise_matching q.collection (q.scan {} predicate)
    have hdistinct := List.pairwise_map.mp (nodup_result hs q predicate)
    refine (hsorted.and hdistinct).imp fun {a b} ⟨hle, hne⟩ => ?_
    cases horder : Document.order q.sortKeys a b with
    | lt => exact order_eq_lt_iff.mp horder
    | eq => exact absurd (id_eq_of_order_eq_eq horder) hne
    | gt => simp [horder] at hle

/-- The result has no more documents than the collection. -/
theorem length_result_le {s : Store} (hs : s.Filed) (q : Query) {count : Nat}
    (hcount : (s.documents q.collection).length ≤ count) (predicate : Option Predicate) :
    (q.result s predicate).length ≤ count := by
  rw [(isResult_result hs q predicate).perm.length_eq]
  exact Nat.le_trans (s.length_accepted_le q.collection predicate) hcount

end DocQuery.Query
