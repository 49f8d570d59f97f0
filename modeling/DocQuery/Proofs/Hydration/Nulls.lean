import DocQuery.Proofs.Hydration.Direct
import DocQuery.Proofs.Hydration.Shown

namespace DocQuery

variable {gone : Document → String → Bool}

namespace Document

/-- Whether a field is one of those to leave out of a document, and holds null there. -/
def DropsNull (gone : Document → String → Bool) (d : Document) (field : String) : Prop :=
  gone d field = true ∧ Entries.get? field d.data = some .null

instance (gone : Document → String → Bool) (d : Document) (field : String) :
    Decidable (d.DropsNull gone field) :=
  inferInstanceAs (Decidable (_ ∧ _))

/-- The document without some of its fields that hold null. -/
def withoutNulls (gone : Document → String → Bool) (d : Document) : Document :=
  { d with data := d.data.filter fun entry => decide (¬ d.DropsNull gone entry.1) }

theorem get?_withoutNulls (d : Document) (field : String) :
    Entries.get? field (d.withoutNulls gone).data =
      if d.DropsNull gone field then none else Entries.get? field d.data := by
  have hfilter :=
    Entries.get?_filter_names (fun name => decide (¬ d.DropsNull gone name)) field d.data
  by_cases hdrops : d.DropsNull gone field
  · rw [if_pos hdrops]
    exact hfilter.trans (if_neg (by simp [hdrops]))
  · rw [if_neg hdrops]
    exact hfilter.trans (if_pos (by simp [hdrops]))

end Document

namespace Store

/-- The store with every document replaced. -/
def mapDocuments (f : Document → Document) (s : Store) : Store :=
  ⟨s.collections.map fun entry => (entry.1, entry.2.map fun filed => (filed.1, f filed.2))⟩

variable {f : Document → Document}

private theorem documents_mapDocuments (f : Document → Document) (s : Store)
    (collection : String) :
    (s.mapDocuments f).documents collection = (s.documents collection).map fun filed =>
      (filed.1, f filed.2) := by
  unfold documents mapDocuments
  rw [Entries.get?_map]
  cases Entries.get? collection s.collections <;> rfl

theorem find?_mapDocuments (f : Document → Document) (s : Store) (collection id : String) :
    (s.mapDocuments f).find? collection id = (s.find? collection id).map f := by
  unfold find?
  rw [documents_mapDocuments, Entries.get?_map]

/-- Documents that keep their ids and collections stay filed where they are. -/
theorem Filed.mapDocuments {s : Store} (hs : s.Filed) (hid : ∀ d, (f d).id = d.id)
    (hcollection : ∀ d, (f d).collection = d.collection) : (s.mapDocuments f).Filed where
  names := List.pairwise_map.mpr hs.names
  documents := by
    intro name
    rw [documents_mapDocuments]
    refine ⟨List.pairwise_map.mpr (hs.documents name).ascending, fun entry hentry => ?_⟩
    obtain ⟨filed, hfiled, rfl⟩ := List.mem_map.mp hentry
    obtain ⟨hown, hnamed⟩ := (hs.documents name).own filed hfiled
    exact ⟨(hid _).trans hown, (hcollection _).trans hnamed⟩

end Store

namespace Hydration

variable {catalog : Catalog} {s : Store} {tree child : NameTree} {d t : Document} {name : String}

/-- A reference by another field than a null one that is left out stays the first. -/
theorem referenceOf?_withoutNulls (gone : Document → String → Bool)
    (candidates : List Reference) (d : Document) :
    (∃ r, referenceOf? candidates d = some (r, []) ∧ d.DropsNull gone r.field) ∨
      referenceOf? candidates (d.withoutNulls gone) = referenceOf? candidates d := by
  induction candidates with
  | nil => exact .inr rfl
  | cons r rest ih =>
    by_cases hdrops : d.DropsNull gone r.field
    · refine .inl ⟨r, ?_, hdrops⟩
      rw [referenceOf?, List.findSome?_cons, hdrops.2]
      rfl
    · unfold referenceOf? at ih ⊢
      rw [List.findSome?_cons, List.findSome?_cons, Document.get?_withoutNulls, if_neg hdrops]
      cases Entries.get? r.field d.data with
      | none => exact ih
      | some value => exact .inr rfl

/-- The showing of documents that were each replaced. -/
def Showing.map (f : Document → Document) (showing : Showing) : Showing :=
  { showing with documents := showing.documents.map f }

private theorem shownBy_mapDocuments (f : Document → Document) (s : Store) (r : Reference)
    (ids : List String) :
    shownBy (s.mapDocuments f).follow r ids = (shownBy s.follow r ids).map f := by
  have hfound : ids.filterMap ((s.mapDocuments f).follow r.target) =
      (ids.filterMap (s.follow r.target)).map f := by
    rw [List.map_filterMap]
    exact List.filterMap_congr fun id _ => s.find?_mapDocuments f r.target.name id
  unfold shownBy
  rw [hfound]
  cases r.cardinality with
  | many => rfl
  | single => cases ids.filterMap (s.follow r.target) <;> rfl

private theorem shownBy_nil (find? : Target → String → Option Document) (r : Reference) :
    shownBy find? r [] = [] := by
  unfold shownBy
  cases r.cardinality <;> rfl

/-- A relation is written by a null that is left out, or is written without it as well. -/
theorem written?_withoutNulls (gone : Document → String → Bool) (s : Store) (d : Document)
    (relation : String) (tree : NameTree) :
    (∃ showing, written? catalog s.follow d relation tree = some showing ∧
      showing.documents = [] ∧
        d.DropsNull gone showing.reference.field) ∨
      written? catalog (s.mapDocuments (·.withoutNulls gone)).follow
        (d.withoutNulls gone) relation tree =
        (written? catalog s.follow d relation tree).map (Showing.map (·.withoutNulls gone)) := by
  rcases referenceOf?_withoutNulls gone (catalog.candidates relation) d with
    ⟨r, href, hdrops⟩ | hsame
  · exact .inl ⟨⟨relation, r, shownBy s.follow r [], tree⟩, by rw [written?, href]; rfl,
      shownBy_nil _ r, hdrops⟩
  · refine .inr ?_
    rw [written?, hsame, written?]
    cases referenceOf? (catalog.candidates relation) d with
    | none => rfl
    | some held => simp [Showing.map, shownBy_mapDocuments]

/-- What is shown is written by a null that is left out, or is shown without it as well. -/
theorem showingEach?_withoutNulls (gone : Document → String → Bool) (s : Store) (d : Document)
    (name : String) (children : List (String × NameTree)) :
    (∃ showing, showingEach? catalog s.follow d name children = some showing ∧
      showing.documents = [] ∧
        d.DropsNull gone showing.reference.field) ∨
      showingEach? catalog (s.mapDocuments (·.withoutNulls gone)).follow
        (d.withoutNulls gone) name children =
        (showingEach? catalog s.follow d name children).map
          (Showing.map (·.withoutNulls gone)) := by
  induction children with
  | nil => exact .inr rfl
  | cons entry rest ih =>
    obtain ⟨relation, tree⟩ := entry
    simp only [showingEach?]
    rcases ih with ⟨showing, hshowing, hnull⟩ | hsame
    · exact .inl ⟨showing, by rw [hshowing]; rfl, hnull⟩
    · rw [hsame]
      cases showingEach? catalog s.follow d name rest with
      | some showing => exact .inr rfl
      | none =>
        simp only [Option.map_none, Option.none_or]
        by_cases hname : Catalog.relationName relation = name
        · simp only [hname, if_true]
          exact written?_withoutNulls gone s d relation tree
        · simp only [hname, if_false]
          exact .inr rfl

/-- Whether a document shows the same documents without the nulls that are left out: under every
    name, and these in turn, along the relations that are written into them. -/
inductive ShowsSame (catalog : Catalog) (s : Store) (gone : Document → String → Bool) :
    NameTree → Document → Prop where
  | intro {tree : NameTree} {d : Document}
      (here : ∀ name,
        shown catalog (s.mapDocuments (·.withoutNulls gone)).follow tree
          (d.withoutNulls gone) name =
          (shown catalog s.follow tree d name).map fun (t, child) => (t.withoutNulls gone, child))
      (below : ∀ name t child, (t, child) ∈ shown catalog s.follow tree d name →
        ShowsSame catalog s gone child t) :
      ShowsSame catalog s gone tree d

/-- Whether a null that is left out hides documents: it is what a relation is written by, here or in
    a document that is shown, and another field of the relation leads to documents without it. -/
inductive HidesByNull (catalog : Catalog) (s : Store) (gone : Document → String → Bool) :
    NameTree → Document → Prop where
  | here {tree : NameTree} {d : Document} {name : String} {showing : Showing}
      (hshowing : showing? catalog s.follow tree d name = some showing)
      (hdrops : d.DropsNull gone showing.reference.field)
      (hidden : shown catalog (s.mapDocuments (·.withoutNulls gone)).follow tree
        (d.withoutNulls gone) name ≠ []) :
      HidesByNull catalog s gone tree d
  | along {tree child : NameTree} {d t : Document} {name : String}
      (hshown : (t, child) ∈ shown catalog s.follow tree d name)
      (hhides : HidesByNull catalog s gone child t) :
      HidesByNull catalog s gone tree d

/-- Nothing is shown for a null. -/
theorem shown_of_dropsNull {showing : Showing}
    (hshowing : showing? catalog s.follow tree d name = some showing)
    (hdrops : d.DropsNull gone showing.reference.field) :
    shown catalog s.follow tree d name = [] := by
  obtain ⟨value, hvalue, hdocuments⟩ := exists_value_of_showing? hshowing
  obtain rfl : value = .null := Option.some.inj (hvalue.symm.trans hdrops.2)
  have hnone : showing.documents = [] := hdocuments.trans (shownBy_nil _ _)
  rw [shown, hshowing]
  simp only [hnone, List.map_nil]

private theorem shown_withoutNulls (gone : Document → String → Bool) (catalog : Catalog)
    (s : Store) (tree : NameTree) (d : Document) (name : String) :
    (∃ showing, showing? catalog s.follow tree d name = some showing ∧
        d.DropsNull gone showing.reference.field) ∨
      shown catalog (s.mapDocuments (·.withoutNulls gone)).follow tree (d.withoutNulls gone) name =
        (shown catalog s.follow tree d name).map fun (t, child) =>
          (t.withoutNulls gone, child) := by
  rcases showingEach?_withoutNulls gone s d name tree.children with
    ⟨showing, hshowing, -, hdrops⟩ | hsame
  · exact .inl ⟨showing, hshowing, hdrops⟩
  · refine .inr ?_
    unfold shown showing?
    rw [hsame]
    cases showingEach? catalog s.follow d name tree.children with
    | none => rfl
    | some showing => simp [Showing.map]

private theorem ShowsSame.not_hidesByNull (hsame : ShowsSame catalog s gone tree d) :
    ¬ HidesByNull catalog s gone tree d := by
  intro hhides
  induction hhides with
  | here hshowing hdrops hidden =>
    obtain ⟨here, -⟩ := hsame
    exact hidden (by rw [here, shown_of_dropsNull hshowing hdrops]; rfl)
  | along hshown _ ih =>
    obtain ⟨-, below⟩ := hsame
    exact ih (below _ _ _ hshown)

/-- Unless a null hides documents, the same are shown without the nulls, level by level. -/
theorem showsSame_of_not_hidesByNull (hnone : ¬ HidesByNull catalog s gone tree d) :
    ShowsSame catalog s gone tree d := by
  induction hheight : tree.height using Nat.strongRecOn generalizing tree d with
  | ind height ih =>
    refine .intro (fun name => ?_) fun name t child hshown => ?_
    · rcases shown_withoutNulls gone catalog s tree d name with
        ⟨showing, hshowing, hdrops⟩ | hsame
      · rw [shown_of_dropsNull hshowing hdrops]
        by_contra hidden
        exact hnone (.here hshowing hdrops hidden)
      · exact hsame
    · exact ih _ (hheight ▸ height_lt_of_mem_shown hshown)
        (fun hhides => hnone (.along hshown hhides)) rfl

/-- Hydrating a page on a store in memory shows the same documents, at every level, whether some
    fields that hold null, on the page or in the store, are there or left out: with the exact
    exception of the documents in which such a null stands before another field of its relation that
    leads to documents. -/
theorem showsSame_iff_not_hidesByNull (hreached : s.Reachable) (config : Config) (catalog : Catalog)
    (chains : List Chain) (documents : List Document) (gone : Document → String → Bool) :
    (s.mapDocuments (·.withoutNulls gone)).Reachable ∧ ∃ hydrated warnings hydrated' warnings',
      (run config catalog chains documents).outcome (.ofStore s) = .ok (hydrated, warnings) ∧
      (run config catalog chains (documents.map (·.withoutNulls gone))).outcome
        (.ofStore (s.mapDocuments (·.withoutNulls gone))) = .ok (hydrated', warnings') ∧
      List.Forall₂ (Renders catalog s.follow (Hydration.tree chains config.maxHydrationDepth).1)
        documents hydrated ∧
      List.Forall₂ (Renders catalog (s.mapDocuments (·.withoutNulls gone)).follow
        (Hydration.tree chains config.maxHydrationDepth).1)
          (documents.map (·.withoutNulls gone)) hydrated' ∧
      ∀ d ∈ documents,
        ShowsSame catalog s gone (Hydration.tree chains config.maxHydrationDepth).1 d ↔
        ¬ HidesByNull catalog s gone (Hydration.tree chains config.maxHydrationDepth).1 d := by
  have hs := hreached.filed
  have hs' : (s.mapDocuments (·.withoutNulls gone)).Filed :=
    hs.mapDocuments (fun _ => rfl) fun _ => rfl
  obtain ⟨warnings, hrun⟩ := outcome_run hs config catalog chains documents
  obtain ⟨warnings', hrun'⟩ :=
    outcome_run hs' config catalog chains (documents.map (·.withoutNulls gone))
  refine ⟨hs'.reachable, _, warnings, _, warnings', hrun, hrun', ?_, ?_, fun d _ => ?_⟩
  · exact forall₂_renders_hydrate _ _
  · exact forall₂_renders_hydrate _ _
  · exact ⟨ShowsSame.not_hidesByNull, showsSame_of_not_hidesByNull⟩

/-- A post without an author, by a null. -/
def unsignedPost : Document := ⟨"p4", "posts", [("author_id", .null)], .epoch, .epoch⟩

private theorem shown_unsignedPost (name : String) :
    shown ⟨{}, Store.sample.names⟩ Store.sample.follow
      (.node [("author", .empty)]) unsignedPost name = [] ∧
    shown ⟨{}, Store.sample.names⟩
      (Store.sample.mapDocuments (·.withoutNulls fun _ _ => true)).follow
      (.node [("author", .empty)]) (unsignedPost.withoutNulls fun _ _ => true) name = [] := by
  by_cases hname : "author" = name
  · subst hname
    decide +kernel
  · have hnone : ∀ s : Store, ∀ d,
        showing? ⟨{}, Store.sample.names⟩ s.follow (.node [("author", .empty)]) d name =
        none := by
      intro s d
      have hother : Catalog.relationName "author" ≠ name :=
        fun heq => hname (heq ▸ by decide +kernel)
      simp [showing?, showingEach?, NameTree.children, hother]
    simp [shown, hnone]

/-- The post shows nobody as its author, with its null or without. -/
theorem showsSame_unsignedPost :
    Store.sample.Reachable ∧
    ShowsSame ⟨{}, Store.sample.names⟩ Store.sample (fun _ _ => true)
      (.node [("author", .empty)]) unsignedPost := by
  obtain ⟨-, _, _, _, _, -, -, -, -, hiff⟩ :=
    showsSame_iff_not_hidesByNull Store.reachable_sample {}
    ⟨{}, Store.sample.names⟩ [⟨["author"]⟩] [unsignedPost] fun _ _ => true
  refine ⟨Store.reachable_sample, (hiff _ (List.mem_singleton_self _)).mpr fun hhides => ?_⟩
  cases hhides with
  | here _ _ hidden => exact hidden (shown_unsignedPost _).2
  | along hshown _ =>
    rw [show (Hydration.tree [⟨["author"]⟩] ({} : Config).maxHydrationDepth).1 =
      .node [("author", .empty)] from rfl, (shown_unsignedPost _).1] at hshown
    cases hshown

/-- A post whose author is null and whose authors are not. -/
def hiddenPost : Document :=
  ⟨"p4", "posts", [("author_id", .null), ("author_ids", .arr [.str "u1"])], .epoch, .epoch⟩

/-- With its null the post shows no author, and without it the one that it has. -/
theorem hydrate_hiddenPost :
    Entries.get? "author"
      (hydrate ⟨{}, Store.sample.names⟩ Store.sample.follow (.node [("author", .empty)])
      hiddenPost).data = some .null ∧
    Entries.get? "author" (hydrate ⟨{}, Store.sample.names⟩
      (Store.sample.mapDocuments (·.withoutNulls fun _ _ => true)).follow
        (.node [("author", .empty)]) (hiddenPost.withoutNulls fun _ _ => true)).data =
          some (.arr [Store.sampleUser.entity]) := by decide +kernel

end Hydration

end DocQuery
