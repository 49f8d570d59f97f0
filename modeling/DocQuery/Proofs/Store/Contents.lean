import DocQuery.Proofs.Entries
import DocQuery.Store.History

namespace DocQuery

/-- Whether documents ascend by id, each under its own id and naming the collection. -/
structure Documents.Filed (collection : String) (documents : Documents) : Prop where
  ascending : Entries.Ascending documents
  own : ∀ entry ∈ documents, entry.2.id = entry.1 ∧ entry.2.collection = collection

private theorem Documents.Filed.insert {collection : String} {present : Documents}
    (hfiled : present.Filed collection) (d : Document) :
    Documents.Filed collection (Entries.insert d.id { d with collection } present) where
  ascending := Entries.ascending_insert _ _ hfiled.ascending
  own := by
    intro entry hentry
    rcases Entries.mem_insert hentry with rfl | hentry
    · exact ⟨rfl, rfl⟩
    · exact hfiled.own entry hentry

namespace Store

/-- Adding documents keeps a collection filed, also when an id is taken and the rest is left out. -/
theorem filed_addDocuments (collection : String) (added : List Document) {present : Documents}
    (hfiled : present.Filed collection) :
    (addDocuments collection added present).1.Filed collection := by
  induction added generalizing present with
  | nil => exact hfiled
  | cons d rest ih =>
    rw [addDocuments]
    split
    · exact hfiled
    · exact ih (hfiled.insert d)

/-- Whether a store files every collection, and its collections ascend by name. -/
structure Filed (s : Store) : Prop where
  names : Entries.Ascending s.collections
  documents : ∀ name, (s.documents name).Filed name

theorem documents_insert (name other : String) (held : Documents) (s : Store) :
    (Store.mk (Entries.insert name held s.collections)).documents other =
      if name = other then held else s.documents other := by
  unfold documents
  rw [Entries.get?_insert]
  split <;> rfl

/-- Filing one collection anew keeps a store filed. -/
theorem Filed.withCollection {s : Store} (hs : s.Filed) {name : String} {held : Documents}
    (hheld : held.Filed name) : (Store.mk (Entries.insert name held s.collections)).Filed where
  names := Entries.ascending_insert _ _ hs.names
  documents := by
    intro other
    rw [documents_insert]
    split
    · next heq => exact heq ▸ hheld
    · exact hs.documents other

/-- A change keeps every document filed, even if it fails. -/
theorem filed_apply (change : Change) {s : Store} (hs : s.Filed) : (change.apply s).1.Filed := by
  cases change with
  | create collection => exact hs.withCollection (hs.documents collection)
  | insert collection added =>
    exact hs.withCollection (filed_addDocuments collection added (hs.documents collection))
  | insertJson collection values =>
    simp only [Change.apply, insertJson]
    split
    · exact hs
    · next added _ =>
      exact hs.withCollection (filed_addDocuments collection added (hs.documents collection))

/-- In every store that changes lead to, each document is filed under its id. -/
theorem Reachable.filed {s : Store} (reached : s.Reachable) : s.Filed := by
  induction reached with
  | empty => exact ⟨List.Pairwise.nil,
    fun _ => ⟨List.Pairwise.nil, fun _ hentry => by cases hentry⟩⟩
  | step _ change ih => exact filed_apply change ih

/-- A document is found under its own id. -/
theorem Filed.id_of_find? {s : Store} (hs : s.Filed) {collection id : String} {d : Document}
    (hfind : s.find? collection id = some d) : d.id = id :=
  ((hs.documents collection).own _ (Entries.mem_of_get? hfind)).1

/-- The documents of a collection are those that are found under their ids. -/
theorem Filed.find?_eq_some_iff {s : Store} (hs : s.Filed) {collection id : String} {d : Document} :
    s.find? collection id = some d ↔ (id, d) ∈ s.documents collection :=
  Entries.get?_eq_some_iff (hs.documents collection).ascending

/-- Filed documents are what adding them one by one leads to. -/
theorem addDocuments_of_filed {collection : String} {present rest : Documents}
    (hfiled : Documents.Filed collection (present ++ rest)) :
    addDocuments collection (rest.map (·.2)) present = (present ++ rest, .ok ()) := by
  induction rest generalizing present with
  | nil => rw [List.append_nil]; rfl
  | cons entry rest ih =>
    obtain ⟨id, d⟩ := entry
    obtain ⟨hid, hcollection⟩ := hfiled.own (id, d) (List.mem_append_right _ List.mem_cons_self)
    obtain rfl : d.id = id := hid
    have hbefore : ∀ other ∈ present, other.1 < d.id := fun other hother =>
      (List.pairwise_append.mp hfiled.ascending).2.2 other hother _ List.mem_cons_self
    have hnew : (Entries.get? d.id present).isSome = false := by
      rw [Option.isSome_eq_false_iff, Option.isNone_iff_eq_none, Entries.get?_eq_none_iff]
      intro hmem
      obtain ⟨other, hother, heq⟩ := List.mem_map.mp hmem
      exact String.ne_of_lt (hbefore other hother) heq
    have hsame : { d with collection } = d := by rw [← hcollection]
    rw [List.append_cons] at hfiled ⊢
    rw [List.map_cons, addDocuments, hnew, hsame,
      Entries.insert_of_forall_lt d hbefore, ← ih hfiled]
    rfl

/-- Every filed store can be reached, by inserting its collections one after the other. -/
theorem Filed.reachable {s : Store} (hs : s.Filed) : s.Reachable := by
  obtain ⟨collections⟩ := s
  suffices h : ∀ rest before, Reachable ⟨before⟩ → Filed ⟨before ++ rest⟩ →
      Reachable ⟨before ++ rest⟩ from
    h collections [] .empty hs
  intro rest
  induction rest with
  | nil => exact fun before hbefore _ => (List.append_nil before).symm ▸ hbefore
  | cons entry rest ih =>
    intro before hbefore hfiled
    obtain ⟨name, held⟩ := entry
    have hlast : ∀ other ∈ before, other.1 < name := fun other hother =>
      (List.pairwise_append.mp hfiled.names).2.2 other hother _ List.mem_cons_self
    have hheld : (Store.mk (before ++ (name, held) :: rest)).documents name = held := by
      unfold Store.documents
      rw [(Entries.get?_eq_some_iff hfiled.names).mpr (List.mem_append_right _ List.mem_cons_self)]
      rfl
    have hempty : (Store.mk before).documents name = [] := by
      unfold Store.documents
      rw [Entries.get?_eq_none_iff.mpr fun hmem => ?_]
      · rfl
      · obtain ⟨other, hother, heq⟩ := List.mem_map.mp hmem
        exact String.ne_of_lt (hlast other hother) heq
    have hadded := @addDocuments_of_filed name [] held (hheld ▸ hfiled.documents name)
    have hstep := hbefore.step (.insert name (held.map (·.2)))
    simp only [Change.apply, insert, hempty, hadded, List.nil_append] at hstep
    rw [Entries.insert_of_forall_lt held hlast] at hstep
    rw [List.append_cons] at hfiled ⊢
    exact ih _ hstep hfiled

/-- A user who refers to a post. -/
def sampleUser : Document :=
  ⟨"u1", "users", [("role", .str "admin"), ("post_id", .str "p1")], .epoch, .epoch⟩

/-- A post that refers to the user. -/
def samplePost : Document := ⟨"p1", "posts", [("author_id", .str "u1")], .epoch, .epoch⟩

/-- A store with the user, the post, a post that refers to nobody who exists and one that refers to
    nobody at all. The last of them came with one that could not be inserted. -/
def sample : Store :=
  Change.applyAll empty [
    .insert "users" [sampleUser],
    .insert "posts" [samplePost, ⟨"p2", "posts", [("author_id", .str "u9")], .epoch, .epoch⟩],
    .insert "posts" [⟨"p3", "posts", [], .epoch, .epoch⟩, samplePost]]

theorem reachable_sample : sample.Reachable := Reachable.empty.applyAll _

end Store

end DocQuery
