import DocQuery.Hydration
import DocQuery.Proofs.Engine.Outcome
import DocQuery.Proofs.Store.Contents

namespace DocQuery.Hydration

/-- Whether the reference that a document holds for a relation leads to a document of a target. -/
def LeadsTo (s : Store) (catalog : Catalog) (d : Document) (relation : String) (t : Target)
    (found : Document) : Prop :=
  ∃ r ids, referenceOf? (catalog.candidates relation) d = some (r, ids) ∧ r.target = t ∧
    ∃ id ∈ ids, s.find? t.name id = some found

/-- Whether a cache holds every document that hydrating a document along a tree leads to, however
    many relations away. -/
inductive Covers (s : Store) (catalog : Catalog) (cache : Cache) :
    NameTree → Document → Prop where
  | node {children : List (String × NameTree)} {d : Document}
      (held : ∀ relation child, (relation, child) ∈ children →
        ∀ t found, LeadsTo s catalog d relation t found → (t, found) ∈ cache)
      (further : ∀ relation child, (relation, child) ∈ children →
        ∀ t found, LeadsTo s catalog d relation t found → Covers s catalog cache child found) :
      Covers s catalog cache (.node children) d

/-- Where there is nothing to follow, every cache covers it. -/
theorem covers_of_isEmpty {tree : NameTree} (hempty : tree.isEmpty) (s : Store) (catalog : Catalog)
    (cache : Cache) (d : Document) : Covers s catalog cache tree d := by
  obtain ⟨children⟩ := tree
  obtain rfl : children = [] := List.isEmpty_iff.mp hempty
  exact .node (fun _ _ hmem => by cases hmem) fun _ _ hmem => by cases hmem

namespace Cache

/-- Whether every document of a cache is one that the store holds for its target. -/
def Sound (s : Store) (cache : Cache) : Prop :=
  ∀ t d, (t, d) ∈ cache → s.find? t.name d.id = some d

theorem sound_nil (s : Store) : Sound s [] := fun _ _ hmem => by cases hmem

/-- What a cache answers is in it, under the id that was asked for. -/
theorem mem_of_find? {cache : Cache} {t : Target} {id : String} {d : Document}
    (hfind : cache.find? t id = some d) : (t, d) ∈ cache ∧ d.id = id := by
  unfold find? at hfind
  obtain ⟨⟨target, d'⟩, hentry, rfl⟩ := Option.map_eq_some_iff.mp hfind
  have hmatch := List.find?_some hentry
  simp only [decide_eq_true_eq] at hmatch
  obtain ⟨rfl, hid⟩ := hmatch
  exact ⟨List.mem_of_find?_eq_some hentry, hid⟩

/-- What a sound cache answers is what the store would answer. -/
theorem Sound.find?_store {s : Store} {cache : Cache} (hsound : cache.Sound s) {t : Target}
    {id : String} {d : Document} (hfind : cache.find? t id = some d) :
    s.find? t.name id = some d := by
  obtain ⟨hentry, rfl⟩ := mem_of_find? hfind
  exact hsound t d hentry

/-- A cache that holds the document of an id, if the store has one, answers for the store. -/
theorem Sound.find?_eq {s : Store} (hs : s.Filed) {cache : Cache} (hsound : cache.Sound s)
    {t : Target} {id : String} (hheld : ∀ d, s.find? t.name id = some d → (t, d) ∈ cache) :
    cache.find? t id = s.find? t.name id := by
  cases hcached : cache.find? t id with
  | some d => rw [hsound.find?_store hcached]
  | none =>
    cases hstored : s.find? t.name id with
    | none => rfl
    | some d =>
      have hmissed := List.find?_eq_none.mp (Option.map_eq_none_iff.mp hcached) _ (hheld d hstored)
      simp [hs.id_of_find? hstored] at hmissed

end Cache

/-- Look-ups that find the same entities write the same relations. -/
theorem hydrateEach_congr {catalog : Catalog} {findA findB : Target → String → Option Document}
    {children : List (String × NameTree)} {d : Document}
    (hentity : ∀ relation child, (relation, child) ∈ children →
      ∀ r ids, referenceOf? (catalog.candidates relation) d = some (r, ids) → ∀ id ∈ ids,
        (findA r.target id).map (fun found => (hydrate catalog findA child found).entity) =
          (findB r.target id).map fun found => (hydrate catalog findB child found).entity)
    (data : List (String × Json)) :
    hydrateEach catalog findA children d data = hydrateEach catalog findB children d data := by
  induction children generalizing data with
  | nil => rfl
  | cons entry rest ih =>
    obtain ⟨relation, child⟩ := entry
    have hrest :=
      ih fun relation' child' hmem => hentity relation' child' (List.mem_cons_of_mem _ hmem)
    rw [hydrateEach, hydrateEach]
    cases href : referenceOf? (catalog.candidates relation) d with
    | none => exact hrest data
    | some held =>
      obtain ⟨r, ids⟩ := held
      have hfound := List.filterMap_congr (hentity relation child List.mem_cons_self r ids href)
      simp only [hfound, hrest]

/-- With a sound cache that covers what hydration leads to, a document is hydrated as if every
    reference were looked up in the store. -/
theorem hydrate_eq_of_covers {s : Store} (hs : s.Filed) {catalog : Catalog} {cache : Cache}
    (hsound : cache.Sound s) {tree : NameTree} {d : Document}
    (hcovers : Covers s catalog cache tree d) :
    hydrate catalog cache.find? tree d =
      hydrate catalog (fun t id => s.find? t.name id) tree d := by
  induction hcovers with
  | @node children d held further ih =>
    rw [hydrate, hydrate]
    refine congrArg (fun data => { d with data }) (hydrateEach_congr ?_ d.data)
    intro relation child hmem r ids href id hid
    have hleads : ∀ found, s.find? r.target.name id = some found →
        LeadsTo s catalog d relation r.target found :=
      fun found hfound => ⟨r, ids, href, rfl, id, hid, hfound⟩
    have hcached := hsound.find?_eq hs fun found hfound =>
      held relation child hmem _ found (hleads found hfound)
    rw [hcached]
    cases hstored : s.find? r.target.name id with
    | none => rw [Option.map_none, Option.map_none]
    | some found =>
      rw [Option.map_some, Option.map_some, ih relation child hmem _ found (hleads found hstored)]

end DocQuery.Hydration
