import DocQuery.Proofs.Hydration.Direct
import DocQuery.Proofs.Hydration.Shown

namespace DocQuery

namespace NameTree

/-- Whether every path of a tree may be followed in another. -/
def Extends (tree larger : NameTree) : Prop :=
  ∀ path, tree.contains path = true → larger.contains path = true

/-- More paths may be followed in the tree of more paths. -/
theorem extends_ofPaths_append (paths more : List (List String)) :
    (ofPaths paths).Extends (ofPaths (paths ++ more)) := by
  intro path hpath
  refine contains_ofPaths_iff.mpr ((contains_ofPaths_iff.mp hpath).imp_right ?_)
  rintro ⟨added, hadded, hstarts⟩
  exact ⟨added, List.mem_append_left more hadded, hstarts⟩

private theorem Extends.child? {tree larger child : NameTree} {name : String}
    (hextends : tree.Extends larger) (hchild : tree.child? name = some child) :
    ∃ child', larger.child? name = some child' ∧ child.Extends child' := by
  have hcontains : ∀ path, tree.contains (name :: path) = child.contains path := by
    intro path
    rw [contains, hchild, Option.any_some]
  have hname := hextends [name] (hcontains [])
  rw [contains] at hname
  cases hlarger : larger.child? name with
  | none =>
    rw [hlarger] at hname
    cases hname
  | some child' =>
    refine ⟨child', rfl, fun path hpath => ?_⟩
    have hbelow := hextends (name :: path) ((hcontains path).trans hpath)
    rwa [contains, hlarger, Option.any_some] at hbelow

end NameTree

namespace Hydration

variable {catalog : Catalog} {find? : Target → String → Option Document} {s : Store}
  {tree larger child : NameTree} {d : Document} {name : String}

/-- What is written for a relation says nothing about the tree below it. -/
theorem written?_eq_map (catalog : Catalog) (find? : Target → String → Option Document)
    (d : Document) (relation : String) (tree other : NameTree) :
    written? catalog find? d relation other =
      (written? catalog find? d relation tree).map fun showing =>
        { showing with tree := other } := by
  unfold written?
  rw [Option.map_map]
  rfl

/-- Where a larger tree shows nothing for a relation of its own, it shows what the tree does. -/
theorem exists_showing?_extends (hordered : tree.Ordered) (hlarger : larger.Ordered)
    (hextends : tree.Extends larger) {showing : Showing}
    (hshowing : showing? catalog find? tree d name = some showing) :
    ∃ other, showing? catalog find? larger d name = some other ∧
      (tree.child? other.relation = none ∨
        other.relation = showing.relation ∧ other.documents = showing.documents ∧
          tree.child? other.relation = some showing.tree ∧ larger.child? other.relation =
            some other.tree) := by
  obtain ⟨hmem, hname, hwritten⟩ := written?_of_showingEach? hshowing
  obtain ⟨child', hchild', -⟩ := hextends.child? (hordered.child?_eq_some_iff.mpr hmem)
  have hsome : (written? catalog find? d showing.relation child').isSome := by
    rw [written?_eq_map _ _ _ _ showing.tree, hwritten]
    rfl
  have hmem' := hlarger.child?_eq_some_iff.mp hchild'
  obtain ⟨other, hother⟩ := Option.isSome_iff_exists.mp (isSome_showingEach? hmem' hname hsome)
  refine ⟨other, hother, ?_⟩
  obtain ⟨hotherMem, hotherName, hotherWritten⟩ := written?_of_showingEach? hother
  cases hown : tree.child? other.relation with
  | none => exact .inl rfl
  | some child =>
    -- both are the last relation of the name that the document refers by, each in its own tree
    have hnotAfter : ¬ other.relation < showing.relation :=
      not_lt_of_showingEach? hlarger.ascending hother hmem' hname hsome
    have hnotBefore : ¬ showing.relation < other.relation := by
      refine not_lt_of_showingEach? hordered.ascending hshowing
        (hordered.child?_eq_some_iff.mp hown) hotherName ?_
      rw [written?_eq_map _ _ _ _ other.tree, hotherWritten]
      rfl
    have hsame : other.relation = showing.relation := by
      rcases Std.lt_trichotomy other.relation showing.relation with hlt | heq | hlt
      · exact absurd hlt hnotAfter
      · exact heq
      · exact absurd hlt hnotBefore
    rw [hsame, written?_eq_map _ _ _ _ showing.tree, hwritten, Option.map_some,
      Option.some.injEq] at hotherWritten
    refine .inr ⟨hsame, ?_, ?_, ?_⟩
    · rw [← hotherWritten]
    · rw [← hown, hsame]
      exact hordered.child?_eq_some_iff.mpr hmem
    · exact hlarger.child?_eq_some_iff.mpr hotherMem

/-- Whether a document keeps under a larger tree what it shows under a tree: under every name with
    documents the same, written for the same relation, and these keep in turn what they show. -/
inductive Keeps (catalog : Catalog) (s : Store) : NameTree → NameTree → Document → Prop where
  | intro {tree larger : NameTree} {d : Document}
      (here : ∀ name showing, showing? catalog s.follow tree d name = some showing →
        showing.documents ≠ [] →
        ∃ other, showing? catalog s.follow larger d name = some other ∧
          other.relation = showing.relation ∧ other.documents = showing.documents)
      (below : ∀ name t child child', (t, child) ∈ shown catalog s.follow tree d name →
        (t, child') ∈ shown catalog s.follow larger d name → Keeps catalog s child child' t) :
      Keeps catalog s tree larger d

/-- Whether a relation that only the larger tree has is written over documents that the tree shows,
    in the document or in one that both show. -/
inductive Displaces (catalog : Catalog) (s : Store) :
    NameTree → NameTree → Document → Prop where
  | here {tree larger : NameTree} {d : Document} {name : String} {showing other : Showing}
      (hshowing : showing? catalog s.follow tree d name = some showing)
      (hdocuments : showing.documents ≠ [])
      (hother : showing? catalog s.follow larger d name = some other)
      (hnew : tree.child? other.relation = none) : Displaces catalog s tree larger d
  | along {tree larger child child' : NameTree} {d t : Document} {name : String}
      (hshown : (t, child) ∈ shown catalog s.follow tree d name)
      (hlarger : (t, child') ∈ shown catalog s.follow larger d name)
      (hdisplaces : Displaces catalog s child child' t) : Displaces catalog s tree larger d

private theorem Keeps.not_displaces (hkeeps : Keeps catalog s tree larger d) :
    ¬ Displaces catalog s tree larger d := by
  intro hdisplaces
  induction hdisplaces with
  | here hshowing hdocuments hother hnew =>
    obtain ⟨here, -⟩ := hkeeps
    obtain ⟨kept, hkept, hrelation, -⟩ := here _ _ hshowing hdocuments
    cases hkept.symm.trans hother
    rw [hrelation] at hnew
    exact Entries.get?_eq_none_iff.mp hnew
      (List.mem_map_of_mem (written?_of_showingEach? hshowing).1)
  | along hshown hlarger _ ih =>
    obtain ⟨-, below⟩ := hkeeps
    exact ih (below _ _ _ _ hshown hlarger)

/-- Unless a relation is written over it, whatever a document shows is kept, level by level. -/
theorem keeps_of_not_displaces (hordered : tree.Ordered) (hlarger : larger.Ordered)
    (hextends : tree.Extends larger) (hnone : ¬ Displaces catalog s tree larger d) :
    Keeps catalog s tree larger d := by
  induction hheight : tree.height using Nat.strongRecOn generalizing tree larger d with
  | ind height ih =>
    have hkept : ∀ name showing, showing? catalog s.follow tree d name = some showing →
        showing.documents ≠ [] →
        ∃ other, showing? catalog s.follow larger d name = some other ∧
          other.relation = showing.relation ∧
          other.documents = showing.documents ∧ tree.child? other.relation = some showing.tree ∧
          larger.child? other.relation = some other.tree := by
      intro name showing hshowing hdocuments
      obtain ⟨other, hother, hnew | hsame⟩ :=
        exists_showing?_extends hordered hlarger hextends hshowing
      · exact absurd (.here hshowing hdocuments hother hnew) hnone
      · exact ⟨other, hother, hsame⟩
    refine .intro (fun name showing hshowing hdocuments => ?_)
      fun name t child child' hshown hlargerShown => ?_
    · obtain ⟨other, hother, hrelation, hdocuments', -⟩ :=
        hkept name showing hshowing hdocuments
      exact ⟨other, hother, hrelation, hdocuments'⟩
    · obtain ⟨showing, hshowing, ht, rfl⟩ := mem_shown_iff.mp hshown
      obtain ⟨other, hother, -, rfl⟩ := mem_shown_iff.mp hlargerShown
      obtain ⟨_, hother', -, -, hchild, hchild'⟩ :=
        hkept name showing hshowing (List.ne_nil_of_mem ht)
      cases hother.symm.trans hother'
      obtain ⟨below, hbelow, hextends'⟩ := hextends.child? hchild
      cases hbelow.symm.trans hchild'
      exact ih _ (hheight ▸ height_lt_of_mem_shown hshown) (hordered.child? hchild)
        (hlarger.child? hchild')
        hextends' (fun hdisplaces => hnone (.along hshown hlargerShown hdisplaces)) rfl

private theorem not_displaces_empty : ¬ Displaces catalog s .empty larger d := by
  intro hdisplaces
  cases hdisplaces with
  | here hshowing _ _ _ => cases hshowing
  | along hshown _ _ => cases hshown

/-- Hydrating a page on a store in memory along more chains keeps what each document shows, at every
    level and for the same relations: with the exact exception of the documents in which a relation
    that only the added chains have is written over documents that were shown. -/
theorem keeps_iff_not_displaces (hreached : s.Reachable) (config : Config) (catalog : Catalog)
    (chains more : List Chain) (documents : List Document) :
    ∃ hydrated warnings hydrated' warnings',
      (run config catalog chains documents).outcome (.ofStore s) = .ok (hydrated, warnings) ∧
      (run config catalog (chains ++ more) documents).outcome
        (.ofStore s) = .ok (hydrated', warnings') ∧
      List.Forall₂ (Renders catalog s.follow (Hydration.tree chains config.maxHydrationDepth).1)
        documents hydrated ∧
      List.Forall₂
        (Renders catalog s.follow (Hydration.tree (chains ++ more) config.maxHydrationDepth).1)
        documents hydrated' ∧
      ∀ d ∈ documents,
        Keeps catalog s (Hydration.tree chains config.maxHydrationDepth).1
            (Hydration.tree (chains ++ more) config.maxHydrationDepth).1 d ↔
          ¬ Displaces catalog s (Hydration.tree chains config.maxHydrationDepth).1
            (Hydration.tree (chains ++ more) config.maxHydrationDepth).1 d := by
  obtain ⟨warnings, hrun⟩ := outcome_run hreached.filed config catalog chains documents
  obtain ⟨warnings', hrun'⟩ :=
    outcome_run hreached.filed config catalog (chains ++ more) documents
  refine ⟨_, warnings, _, warnings', hrun, hrun', ?_, ?_,
    fun d _ => ⟨Keeps.not_displaces, ?_⟩⟩
  · exact forall₂_renders_hydrate _ _
  · exact forall₂_renders_hydrate _ _
  · refine keeps_of_not_displaces (NameTree.ordered_ofPaths _) (NameTree.ordered_ofPaths _) ?_
    rw [Hydration.tree, Hydration.tree, List.map_append]
    exact NameTree.extends_ofPaths_append _ _

/-- The post still shows its author when the posts of the author are asked for as well. -/
theorem keeps_sample_post :
    Store.sample.Reachable ∧
    Keeps ⟨{}, Store.sample.names⟩ Store.sample (.node [("author", .empty)])
      (.node [("author", .node [("post", .empty)])]) Store.samplePost := by
  obtain ⟨_, _, _, _, -, -, -, -, hiff⟩ := keeps_iff_not_displaces Store.reachable_sample {}
    ⟨{}, Store.sample.names⟩ [⟨["author"]⟩] [⟨["author", "post"]⟩] [Store.samplePost]
  refine ⟨Store.reachable_sample, (hiff _ (List.mem_singleton_self _)).mpr fun hdisplaces => ?_⟩
  cases hdisplaces with
  | @here _ _ _ _ _ other _ _ hother hnew =>
    have hmem : (other.relation, other.tree) ∈ [("author", NameTree.node [("post", .empty)])] :=
      (written?_of_showingEach? hother).1
    obtain ⟨hrelation, -⟩ := Prod.mk.inj (List.mem_singleton.mp hmem)
    rw [hrelation] at hnew
    exact Option.some_ne_none _ hnew
  | along hshown _ hdisplaces =>
    obtain ⟨showing, hshowing, -, rfl⟩ := mem_shown_iff.mp hshown
    have hmem : (showing.relation, showing.tree) ∈ [("author", NameTree.empty)] :=
      (written?_of_showingEach? hshowing).1
    obtain ⟨-, htree⟩ := Prod.mk.inj (List.mem_singleton.mp hmem)
    rw [htree] at hdisplaces
    exact not_displaces_empty hdisplaces

/-- The author of the post shows the post, until the field of the author is asked for as well: it is
    written under the same name, without the post. -/
theorem hydrate_sample_post_displaced :
    Entries.get? "author" (hydrate ⟨{}, Store.sample.names⟩ Store.sample.follow
      (Hydration.tree [⟨["author", "post"]⟩] 2).1 Store.samplePost).data =
        some (Document.entity { Store.sampleUser with
          data := Store.sampleUser.data ++ [("post", Store.samplePost.entity)] }) ∧
    Entries.get? "author" (hydrate ⟨{}, Store.sample.names⟩ Store.sample.follow
      (Hydration.tree ([⟨["author", "post"]⟩] ++ [⟨["author_id"]⟩]) 2).1
      Store.samplePost).data =
        some Store.sampleUser.entity := by decide +kernel

end Hydration

end DocQuery
