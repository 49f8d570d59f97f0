import DocQuery.Proofs.Document.Instants
import DocQuery.Proofs.Store.ScanOrder

namespace DocQuery

namespace Document

/-- Whether a document was read from a value, for the collection that it is in or for another
    one. -/
def IsRead (d : Document) : Prop :=
  ∃ collection value fresh, fresh.now.IsProper ∧ ofJson collection value fresh =
    .ok { d with collection }

/-- The order in time of one of the instants of two documents. -/
def compareByTime (field : String) (direction : Direction) (a b : Document) : Ordering :=
  match direction with
  | .ascending => compare (a.instant field) (b.instant field)
  | .descending => compare (b.instant field) (a.instant field)

/-- Whether a document stands before another in the order of time, by its id if they are of the same
    time. -/
def PrecedesByTime (field : String) (direction : Direction) (a b : Document) : Prop :=
  compareByTime field direction a b = .lt ∨ a.instant field = b.instant field ∧ a.id < b.id

instance (field : String) (direction : Direction) (a b : Document) :
    Decidable (a.PrecedesByTime field direction b) :=
  inferInstanceAs (Decidable (_ ∨ _))

variable {a b : Document} {field : String} {direction : Direction}

private theorem compareByTime_eq_iff :
    compareByTime field direction a b = .eq ↔ a.instant field = b.instant field := by
  cases direction with
  | ascending => exact Instant.compare_eq_iff
  | descending => exact Instant.compare_eq_iff.trans eq_comm

private theorem compareByTime_swap :
    compareByTime field direction b a = (compareByTime field direction a b).swap := by
  cases direction with
  | ascending => exact Std.OrientedOrd.eq_swap
  | descending => exact Std.OrientedOrd.eq_swap

theorem PrecedesByTime.asymm (hab : a.PrecedesByTime field direction b) :
    ¬ b.PrecedesByTime field direction a := by
  unfold PrecedesByTime at hab ⊢
  rw [compareByTime_swap]
  rcases hab with hlt | ⟨hsame, hid⟩
  · rw [hlt]
    rintro (hgt | ⟨hsame, -⟩)
    · cases hgt
    · rw [compareByTime_eq_iff.mpr hsame.symm] at hlt
      cases hlt
  · rw [compareByTime_eq_iff.mpr hsame]
    rintro (hlt | ⟨-, hid'⟩)
    · cases hlt
    · exact String.lt_asymm hid hid'

private theorem IsRead.isProper (ha : a.IsRead) (field : String) : (a.instant field).IsProper := by
  obtain ⟨collection, value, fresh, hnow, hread⟩ := ha
  exact isProper_of_ofJson hnow hread field

/-- The texts of instants with plain years are ordered as the instants are. -/
theorem order_instant (hfield : Mongo.isInstantField field = true) (ha : a.IsRead) (hb : b.IsRead)
    (hyear : (a.instant field).HasPlainYear) (hyear' : (b.instant field).HasPlainYear) :
    SortKey.order ⟨field, direction⟩ a b = compareByTime field direction a b := by
  simp only [SortKey.order, field?_of_isInstantField hfield, Option.getD_some, Json.order]
  cases direction with
  | ascending =>
    exact Instant.compare_text (ha.isProper field) (hb.isProper field) hyear.2 hyear'.1 hyear'.2
  | descending =>
    exact Instant.compare_text (hb.isProper field) (ha.isProper field) hyear'.2 hyear.1 hyear.2

theorem order_append (keys more : List SortKey) :
    order (keys ++ more) a b = (order keys a b).then (order more a b) := by
  induction keys with
  | nil => rfl
  | cons key rest ih => rw [List.cons_append, order, order, ih, Ordering.then_assoc]

/-- Ascending ids as a last key change nothing, as documents that are alike stand so anyway. -/
theorem comesBefore_append_idField {keys : List SortKey} :
    a.ComesBefore (keys ++ [⟨idField, .ascending⟩]) b ↔ a.ComesBefore keys b := by
  have hids : order [⟨idField, .ascending⟩] a b = compare a.id b.id := by
    rw [order, order, order_idField, Ordering.then_eq]
  have hlt : compare a.id b.id = .lt ↔ a.id < b.id := compareOfLessAndEq_eq_lt
  unfold ComesBefore
  rw [order_append, hids]
  cases order keys a b with
  | lt | gt => simp
  | eq => simp [hlt]

/-- The order of a scan by an instant, ids included, is the order of time. -/
theorem precedesByTime_of_comesBefore (hfield : Mongo.isInstantField field = true) (ha : a.IsRead)
    (hb : b.IsRead) (hyear : (a.instant field).HasPlainYear)
    (hyear' : (b.instant field).HasPlainYear) (hbefore : a.ComesBefore [⟨field, direction⟩] b) :
    a.PrecedesByTime field direction b := by
  have horder : order [⟨field, direction⟩] a b = compareByTime field direction a b := by
    rw [order, order, Ordering.then_eq, order_instant hfield ha hb hyear hyear']
  unfold ComesBefore at hbefore
  rwa [horder, compareByTime_eq_iff] at hbefore

/-- Lists of the same documents in the two directions of time show the instants in opposite
    order. -/
theorem map_instant_eq_reverse {earliest latest : List Document} {field : String}
    (hperm : latest.Perm earliest) (hearliest : earliest.Pairwise (PrecedesByTime field .ascending))
    (hlatest : latest.Pairwise (PrecedesByTime field .descending)) :
    latest.map (instant field) = (earliest.map (instant field)).reverse := by
  have hle : ∀ {a b direction}, PrecedesByTime field direction a b →
      (compareByTime field direction a b).isLE := by
    rintro a b direction (hlt | ⟨hsame, -⟩)
    · rw [hlt]; rfl
    · rw [compareByTime_eq_iff.mpr hsame]; rfl
  have hantisymm : ∀ t u : Instant, (compare u t).isLE → (compare t u).isLE →
      t = u := fun t u hut htu =>
    Instant.compare_eq_iff.mp (Std.OrientedCmp.isLE_antisymm htu hut)
  -- read backwards, the latest first ascends too, and two ascending lists of the same instants
  -- are one
  refine List.Perm.eq_of_pairwise (fun t u _ _ => hantisymm t u)
    (List.pairwise_map.mpr (hlatest.imp hle))
    (List.pairwise_reverse.mpr (List.pairwise_map.mpr (hearliest.imp hle))) ?_
  exact (hperm.map _).trans (List.reverse_perm _).symm

end Document

namespace Store

/-- A scan by an instant finds what its filter accepts in the order of time. -/
theorem pairwise_matching_instant {s : Store} (hs : s.Filed) {collection field : String}
    (hfield : Mongo.isInstantField field = true)
    (hread : ∀ entry ∈ s.documents collection, entry.2.IsRead ∧
      (entry.2.instant field).HasPlainYear) (wanted : Scan) {direction : Direction}
    (hsort : wanted.sort = [⟨field, direction⟩] ∨
      wanted.sort = [⟨field, direction⟩, ⟨Document.idField, .ascending⟩]) :
    (s.matching collection wanted).Pairwise (Document.PrecedesByTime field direction) := by
  have hmatching : ∀ d ∈ s.matching collection wanted, d.IsRead ∧
      (d.instant field).HasPlainYear := by
    intro d hd
    have haccepted := (s.matching_perm collection wanted).mem_iff.mp hd
    obtain ⟨entry, hentry, rfl⟩ := List.mem_map.mp (List.mem_of_mem_filter haccepted)
    exact hread entry hentry
  refine (hs.pairwise_matching collection wanted).imp_of_mem fun {a b} ha hb hbefore => ?_
  refine Document.precedesByTime_of_comesBefore hfield (hmatching a ha).1
    (hmatching b hb).1 (hmatching a ha).2
    (hmatching b hb).2 ?_
  rcases hsort with hsort | hsort
  · rwa [hsort] at hbefore
  · rw [hsort] at hbefore
    exact Document.comesBefore_append_idField.mp hbefore

/-- Scans of read documents by their making or by their last change. If the years of these instants
    are plain, the scan of all that a filter accepts is the one list of it in the order of time, the
    earliest or the latest first and documents of the same time by ascending ids, and a page of the
    scan is a part of this list. In the two directions the instants stand in opposite order. -/
theorem scan_chronological {s : Store} (reached : s.Reachable) {collection field : String}
    (hfield : Mongo.isInstantField field = true)
    (hread : ∀ entry ∈ s.documents collection, entry.2.IsRead ∧
      (entry.2.instant field).HasPlainYear)
    (filter : Option Predicate) (countTotal : Bool) {rest : List SortKey}
    (hrest : rest = [] ∨ rest = [⟨Document.idField, .ascending⟩]) :
    let found direction :=
      (s.scan collection ⟨filter, ⟨field, direction⟩ :: rest, none, 0, countTotal⟩).documents
    (∀ direction,
      (found direction).Perm (s.accepted collection filter) ∧
      (found direction).Pairwise (Document.PrecedesByTime field direction) ∧
      (∀ other : List Document, other.Perm (s.accepted collection filter) →
        other.Pairwise (Document.PrecedesByTime field direction) → other = found direction) ∧
      ∀ limit offset,
        (s.scan collection ⟨filter, ⟨field, direction⟩ :: rest, some limit, offset,
          countTotal⟩).documents = ((found direction).drop offset).take limit) ∧
    (found .descending).map (Document.instant field) =
      ((found .ascending).map (Document.instant field)).reverse := by
  intro found
  have hsort : ∀ direction,
      (⟨field, direction⟩ : SortKey) :: rest = [⟨field, direction⟩] ∨
      (⟨field, direction⟩ : SortKey) :: rest =
      [⟨field, direction⟩, ⟨Document.idField, .ascending⟩] := fun _ =>
    hrest.imp (congrArg _) (congrArg _)
  have hperm : ∀ direction, (found direction).Perm (s.accepted collection filter) :=
    fun direction =>
    s.matching_perm collection ⟨filter, ⟨field, direction⟩ :: rest, none, 0, countTotal⟩
  have hordered : ∀ direction,
      (found direction).Pairwise (Document.PrecedesByTime field direction) :=
    fun direction => pairwise_matching_instant reached.filed hfield hread
      ⟨filter, ⟨field, direction⟩ :: rest, none, 0, countTotal⟩ (hsort direction)
  refine ⟨fun direction =>
    ⟨hperm direction, hordered direction, fun other hother hpairwise => ?_, fun _ _ => rfl⟩,
    Document.map_instant_eq_reverse ((hperm .descending).trans (hperm .ascending).symm)
      (hordered .ascending)
      (hordered .descending)⟩
  exact List.Perm.eq_of_pairwise (fun _ _ _ _ hab hba => absurd hba hab.asymm) hpairwise
    (hordered direction)
    (hother.trans (hperm direction).symm)

/-- The object of a post with the text of its making. -/
def madeObject (id created : String) : Json := .obj [("id", .str id), ("created_at", .str created)]

/-- Objects of posts around the end of 2016, which had a leap second, and one from before 1970. -/
def madeObjects : List Json :=
  [madeObject "p1" "2016-12-31T23:59:60.250Z", madeObject "p2" "2017-01-01T00:59:59.999+01:00",
    madeObject "p3" "2017-01-01T00:00:00Z", madeObject "p4" "1969-12-31T23:00:00-00:30",
    madeObject "p5" "2016-12-31T19:00:00.0009-05:00"]

/-- A store that holds the posts. -/
def madePosts : Store :=
  (Store.empty.insertJson "posts" (madeObjects.map (·, ⟨"new", .epoch⟩))).1

/-- The leap second is later than the second before it and earlier than the next minute, in which
    two posts were made in the same millisecond. -/
theorem scan_chronological_madePosts :
    (madePosts.scan "posts" ⟨none, [⟨"created_at", .ascending⟩], none, 0,
      true⟩).documents.map Document.id = ["p4", "p2", "p1", "p3", "p5"] ∧
    (madePosts.scan "posts" ⟨none, [⟨"created_at", .descending⟩], none, 0,
      true⟩).documents.map Document.id = ["p3", "p5", "p1", "p2", "p4"] := by
  have hreached : madePosts.Reachable :=
    Reachable.empty.step (.insertJson "posts" (madeObjects.map (·, ⟨"new", .epoch⟩)))
  have hread : ∀ entry ∈ madePosts.documents "posts",
      entry.2.IsRead ∧ (entry.2.instant "created_at").HasPlainYear := by
    have hobjects : ∀ entry ∈ madePosts.documents "posts",
        (∃ value ∈ madeObjects,
          Document.ofJson "posts" value ⟨"new", .epoch⟩ =
            .ok { entry.2 with collection := "posts" }) ∧
        (entry.2.instant "created_at").HasPlainYear := by decide +kernel
    intro entry hentry
    obtain ⟨⟨value, -, hvalue⟩, hyear⟩ := hobjects entry hentry
    exact ⟨⟨"posts", value, ⟨"new", .epoch⟩, by decide, hvalue⟩, hyear⟩
  have hfield : Mongo.isInstantField "created_at" = true := by decide
  obtain ⟨hscans, -⟩ := scan_chronological hreached hfield hread none true (.inl rfl)
  have hfound : ∀ direction ids,
      (madePosts.fetch "posts" ids).Perm (madePosts.accepted "posts" none) →
      (madePosts.fetch "posts" ids).Pairwise (Document.PrecedesByTime "created_at" direction) →
      (madePosts.scan "posts" ⟨none, [⟨"created_at", direction⟩],
        none, 0, true⟩).documents =
        madePosts.fetch "posts" ids := fun direction ids hperm hpairwise =>
    ((hscans direction).2.2.1 _ hperm hpairwise).symm
  rw [hfound .ascending ["p4", "p2", "p1", "p3", "p5"] (by decide +kernel) (by decide +kernel),
    hfound .descending ["p3", "p5", "p1", "p2", "p4"] (by decide +kernel) (by decide +kernel)]
  decide +kernel

end Store

end DocQuery
