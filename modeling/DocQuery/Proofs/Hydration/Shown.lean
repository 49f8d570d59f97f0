import Mathlib.Data.List.Forall2
import DocQuery.Hydration
import DocQuery.Proofs.NameTree

namespace DocQuery

/-- The document that a reference to a target leads to. -/
def Store.follow (s : Store) (t : Target) (id : String) : Option Document := s.find? t.name id

namespace Hydration

/-- What is written under a name: the relation that it is written for, the reference that it is
    followed by, the documents that are shown, and the relations that are written into these. -/
structure Showing where
  relation : String
  reference : Reference
  documents : List Document
  tree : NameTree

section Shown

variable (catalog : Catalog) (find? : Target → String → Option Document)

/-- The documents that a reference shows: all that are found, but the first alone if it is
    single. -/
def shownBy (r : Reference) (ids : List String) : List Document :=
  match r.cardinality with
  | .single => (ids.filterMap (find? r.target)).head?.toList
  | .many => ids.filterMap (find? r.target)

/-- What one relation writes, if the document holds a reference for it. -/
def written? (d : Document) (relation : String) (tree : NameTree) : Option Showing :=
  (referenceOf? (catalog.candidates relation) d).map fun (r, ids) =>
    ⟨relation, r, shownBy find? r ids, tree⟩

/-- What the last of several relations with a name writes, of those that the document refers by. -/
def showingEach? (d : Document) (name : String) : List (String × NameTree) → Option Showing
  | [] => none
  | (relation, tree) :: rest =>
    (showingEach? d name rest).or
      (if Catalog.relationName relation = name then written? catalog find? d relation tree
      else none)

/-- What a document hydrated along a tree shows under a name, if anything is written there. -/
def showing? (tree : NameTree) (d : Document) (name : String) : Option Showing :=
  showingEach? catalog find? d name tree.children

/-- The documents that a hydrated document shows under a name, each with the relations that are
    written into it. -/
def shown (tree : NameTree) (d : Document) (name : String) : List (Document × NameTree) :=
  match showing? catalog find? tree d name with
  | some showing => showing.documents.map (·, showing.tree)
  | none => []

/-- What is written for a showing. -/
def Showing.value (showing : Showing) : Json :=
  relationValue showing.reference.cardinality
    (showing.documents.map fun t => (hydrate catalog find? showing.tree t).entity)

/-- Whether a document has under every name what is shown there, and its own data where nothing
    is. -/
def Renders (tree : NameTree) (d hydrated : Document) : Prop :=
  ∀ name, Entries.get? name hydrated.data =
    ((showing? catalog find? tree d name).map (Showing.value catalog find?)).or
      (Entries.get? name d.data)

variable {catalog find?}

/-- A relation is written as the documents that its reference shows. -/
theorem relationValue_shownBy (r : Reference) (ids : List String) (tree : NameTree) :
    relationValue r.cardinality (ids.filterMap fun id =>
        (find? r.target id).map fun t => (hydrate catalog find? tree t).entity) =
      relationValue r.cardinality
        ((shownBy find? r ids).map fun t => (hydrate catalog find? tree t).entity) := by
  have hmap : (ids.filterMap fun id => (find? r.target id).map fun t =>
      (hydrate catalog find? tree t).entity) =
      (ids.filterMap (find? r.target)).map fun t => (hydrate catalog find? tree t).entity :=
    (List.map_filterMap ..).symm
  rw [hmap, shownBy]
  cases r.cardinality with
  | many => rfl
  | single => cases ids.filterMap (find? r.target) <;> rfl

/-- Of relations that are written under one name the last one stands there. -/
theorem get?_hydrateEach (children : List (String × NameTree)) (d : Document) (name : String)
    (data : List (String × Json)) :
    Entries.get? name (hydrateEach catalog find? children d data) =
      ((showingEach? catalog find? d name children).map (Showing.value catalog find?)).or
        (Entries.get? name data) := by
  induction children generalizing data with
  | nil => rfl
  | cons entry rest ih =>
    obtain ⟨relation, tree⟩ := entry
    rw [hydrateEach, showingEach?, Option.map_or, Option.or_assoc]
    cases href : referenceOf? (catalog.candidates relation) d with
    | none => simp [ih, written?, href]
    | some held =>
      obtain ⟨r, ids⟩ := held
      simp only
      rw [ih, Entries.get?_set, relationValue_shownBy]
      congr 1
      split
      · simp [written?, href, Showing.value]
      · rfl

/-- A document comes out with what is shown under every name. -/
theorem renders_hydrate (tree : NameTree) (d : Document) :
    Renders catalog find? tree d (hydrate catalog find? tree d) := by
  obtain ⟨children⟩ := tree
  exact fun name => get?_hydrateEach children d name d.data

/-- Each document of a page comes out so. -/
theorem forall₂_renders_hydrate (tree : NameTree) (documents : List Document) :
    List.Forall₂ (Renders catalog find? tree) documents
      (documents.map (hydrate catalog find? tree)) :=
  List.forall₂_map_right_iff.mpr (List.forall₂_same.mpr fun d _ => renders_hydrate tree d)

/-- What is shown under a name is written for a relation of that name, for which the document holds
    a reference. -/
theorem written?_of_showingEach? {children : List (String × NameTree)} {d : Document}
    {name : String} {showing : Showing}
    (hshowing : showingEach? catalog find? d name children = some showing) :
    (showing.relation, showing.tree) ∈ children ∧
    Catalog.relationName showing.relation = name ∧
      written? catalog find? d showing.relation showing.tree = some showing := by
  induction children with
  | nil => cases hshowing
  | cons entry rest ih =>
    obtain ⟨relation, tree⟩ := entry
    rw [showingEach?, Option.or_eq_some_iff] at hshowing
    rcases hshowing with hrest | ⟨-, hfirst⟩
    · exact (ih hrest).imp_left (List.mem_cons_of_mem _)
    · obtain ⟨hname, hwritten⟩ := Option.ite_none_right_eq_some.mp hfirst
      obtain ⟨held, href, rfl⟩ := Option.map_eq_some_iff.mp hwritten
      exact ⟨List.mem_cons_self, hname, hwritten⟩

/-- Something is shown under the name of every relation that the document refers by. -/
theorem isSome_showingEach? {children : List (String × NameTree)} {d : Document} {name : String}
    {entry : String × NameTree} (hentry : entry ∈ children)
    (hname : Catalog.relationName entry.1 = name)
    (hwritten : (written? catalog find? d entry.1 entry.2).isSome) :
    (showingEach? catalog find? d name children).isSome := by
  induction children with
  | nil => cases hentry
  | cons first rest ih =>
    rw [showingEach?, Option.isSome_or, Bool.or_eq_true]
    rcases List.mem_cons.mp hentry with rfl | hrest
    · exact .inr (by rw [if_pos hname]; exact hwritten)
    · exact .inl (ih hrest)

/-- What is shown is written for the last of the relations of a name that the document refers by. -/
theorem not_lt_of_showingEach? {children : List (String × NameTree)} {d : Document} {name : String}
    (hascending : Entries.Ascending children) {showing : Showing}
    (hshowing : showingEach? catalog find? d name children = some showing)
    {entry : String × NameTree} (hentry : entry ∈ children)
    (hname : Catalog.relationName entry.1 = name)
    (hwritten : (written? catalog find? d entry.1 entry.2).isSome) :
    ¬ showing.relation < entry.1 := by
  induction children with
  | nil => cases hentry
  | cons first rest ih =>
    obtain ⟨hfirst, hrest⟩ := List.pairwise_cons.mp hascending
    rw [showingEach?, Option.or_eq_some_iff] at hshowing
    rcases hshowing with hlater | ⟨hnone, hhere⟩
    · rcases List.mem_cons.mp hentry with rfl | hmem
      · exact Std.not_gt_of_lt (hfirst _ (written?_of_showingEach? hlater).1)
      · exact ih hrest hlater hmem
    · rcases List.mem_cons.mp hentry with rfl | hmem
      · obtain ⟨held, -, rfl⟩ :=
          Option.map_eq_some_iff.mp (Option.ite_none_right_eq_some.mp hhere).2
        exact Std.lt_irrefl
      · have hsome := isSome_showingEach? hmem hname hwritten
        rw [hnone] at hsome
        cases hsome

/-- The documents shown are those that the field of the reference refers to. -/
theorem exists_value_of_showing? {tree : NameTree} {d : Document} {name : String}
    {showing : Showing} (hshowing : showing? catalog find? tree d name = some showing) :
    ∃ value, Entries.get? showing.reference.field d.data = some value ∧
      showing.documents = shownBy find? showing.reference (idsOf value) := by
  obtain ⟨-, -, hwritten⟩ := written?_of_showingEach? hshowing
  generalize showing.relation = relation, showing.tree = child at hwritten
  obtain ⟨held, href, rfl⟩ := Option.map_eq_some_iff.mp hwritten
  obtain ⟨candidate, -, hcandidate⟩ := List.exists_of_findSome?_eq_some href
  obtain ⟨value, hvalue, rfl⟩ := Option.map_eq_some_iff.mp hcandidate
  exact ⟨value, hvalue, rfl⟩

/-- A document that is shown goes on with the tree of the relation it is shown for. -/
theorem mem_shown_iff {tree child : NameTree} {d t : Document} {name : String} :
    (t, child) ∈ shown catalog find? tree d name ↔
      ∃ showing, showing? catalog find? tree d name = some showing ∧ t ∈ showing.documents ∧
        showing.tree = child := by
  unfold shown
  cases showing? catalog find? tree d name with
  | none => exact iff_of_false (List.not_mem_nil) (by rintro ⟨_, hnone, -⟩; cases hnone)
  | some showing =>
    simp only [List.mem_map, Prod.mk.injEq, Option.some.injEq, exists_eq_left']
    exact ⟨fun ⟨_, ht, heq, htree⟩ => ⟨heq ▸ ht, htree⟩,
      fun ⟨ht, htree⟩ => ⟨t, ht, rfl, htree⟩⟩

/-- What is written into a document that is shown is lower than the tree. -/
theorem height_lt_of_mem_shown {tree child : NameTree} {d t : Document} {name : String}
    (hshown : (t, child) ∈ shown catalog find? tree d name) : child.height < tree.height := by
  obtain ⟨showing, hshowing, -, rfl⟩ := mem_shown_iff.mp hshown
  obtain ⟨children⟩ := tree
  exact NameTree.height_lt_of_mem (written?_of_showingEach? hshowing).1

end Shown

end Hydration

end DocQuery
