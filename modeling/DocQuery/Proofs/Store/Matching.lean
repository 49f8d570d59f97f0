import DocQuery.Proofs.Store.Contents
import DocQuery.Proofs.Store.Order

namespace DocQuery.Store

/-- The documents of a collection that a scan's filter accepts, in the order of their ids. -/
def accepted (collection : String) (filter : Option Predicate) (s : Store) : List Document :=
  ((s.documents collection).map (·.2)).filter fun d => filter.all fun p => p.accepts d

/-- What matches is sorted from the accepted documents in the order of their ids. -/
theorem matching_eq_mergeSort (collection : String) (wanted : Scan) (s : Store) :
    s.matching collection wanted = (s.accepted collection wanted.filter).mergeSort
      fun a b => (Document.order wanted.sort a b).isLE := by
  unfold matching accepted
  cases wanted.filter with
  | none =>
    have hall : ((s.documents collection).map (·.2)).filter
        (fun d => (none : Option Predicate).all fun p => p.accepts d) =
          (s.documents collection).map (·.2) := List.filter_eq_self.mpr fun _ _ => rfl
    rw [hall]
  | some p => rfl

/-- A scan puts the accepted documents in order, and neither adds one nor leaves one out. -/
theorem matching_perm (collection : String) (wanted : Scan) (s : Store) :
    (s.matching collection wanted).Perm (s.accepted collection wanted.filter) := by
  rw [matching_eq_mergeSort]
  exact List.mergeSort_perm _ _

/-- No document that a scan finds is followed by one that comes before it. -/
theorem pairwise_matching (collection : String) (wanted : Scan) (s : Store) :
    (s.matching collection wanted).Pairwise fun a b => (Document.order wanted.sort a b).isLE := by
  rw [matching_eq_mergeSort]
  exact List.pairwise_mergeSort (fun a b c => Std.TransCmp.isLE_trans) isLE_or_isLE _

/-- A scan gives a part of what matches, in the same order. -/
theorem scan_sublist_matching (collection : String) (wanted : Scan) (s : Store) :
    (s.scan collection wanted).documents.Sublist (s.matching collection wanted) := by
  unfold scan
  dsimp only
  split
  · exact (List.take_sublist _ _).trans (List.drop_sublist _ _)
  · exact List.drop_sublist _ _

theorem length_accepted_le (collection : String) (filter : Option Predicate) (s : Store) :
    (s.accepted collection filter).length ≤ (s.documents collection).length :=
  Nat.le_trans (List.length_filter_le _ _) (Nat.le_of_eq (List.length_map _))

/-- The documents of a collection that a filter accepts ascend by their ids. -/
theorem Filed.pairwise_accepted {s : Store} (hs : s.Filed) (collection : String)
    (filter : Option Predicate) :
    (s.accepted collection filter).Pairwise fun a b => a.id < b.id := by
  refine List.Pairwise.filter _ (List.pairwise_map.mpr ?_)
  refine (hs.documents collection).ascending.imp_of_mem fun {a b} ha hb hlt => ?_
  rw [((hs.documents collection).own a ha).1, ((hs.documents collection).own b hb).1]
  exact hlt

/-- The documents of a collection that a filter accepts have distinct ids. -/
theorem Filed.nodup_accepted {s : Store} (hs : s.Filed) (collection : String)
    (filter : Option Predicate) :
    ((s.accepted collection filter).map Document.id).Nodup :=
  List.pairwise_map.mpr ((hs.pairwise_accepted collection filter).imp String.ne_of_lt)

end DocQuery.Store
