import DocQuery.Proofs.Hydration.Coverage
import DocQuery.Proofs.Hydration.Shown
import DocQuery.Proofs.NameTree

namespace DocQuery.Hydration

/-- The ids that are wanted of a target are those of the references to it. -/
theorem mem_wantedIds {references : List (Target × String)} {t : Target} {id : String} :
    id ∈ wantedIds references t ↔ (t, id) ∈ references := by
  rw [wantedIds, Sorted.mem_ofList, List.mem_map]
  constructor
  · rintro ⟨⟨target, id⟩, hmem, rfl⟩
    obtain ⟨hmem, htarget⟩ := List.mem_filter.mp hmem
    rwa [of_decide_eq_true htarget] at hmem
  · exact fun hmem => ⟨(t, id), List.mem_filter.mpr ⟨hmem, decide_eq_true rfl⟩, rfl⟩

/-- Reading what is wanted adds to the cache the documents of the references, and no others. -/
theorem outcome_fetchWanted (s : Store) (references : List (Target × String)) (cache : Cache) :
    ∃ cache', (fetchWanted references cache).outcome (.ofStore s) = .ok cache' ∧
      ∀ t d, (t, d) ∈ cache' ↔
        (t, d) ∈ cache ∨ ∃ id, (t, id) ∈ references ∧ s.find? t.name id = some d := by
  refine ⟨_, Reading.outcome_foldlM (g := fun cache t =>
    ((s.fetch t.name (wantedIds references t)).map (t, ·)).reverse ++ cache) ?_ _ cache,
      fun t d => ?_⟩
  · intro cache t
    rw [Reading.outcome_bind_of_ok (Reading.outcome_fetch s t.name _), Reading.outcome_pure,
      List.foldl_flip_cons_eq_append]
  · rw [List.foldl_flip_append_eq_append, List.mem_append, or_comm]
    refine or_congr_right ?_
    simp only [List.mem_flatten, List.mem_reverse, List.mem_map, Sorted.mem_ofList]
    constructor
    · rintro ⟨_, ⟨t', -, rfl⟩, hmem⟩
      obtain ⟨d', hd', heq⟩ := List.mem_map.mp (List.mem_reverse.mp hmem)
      cases heq
      obtain ⟨id, hid, hfind⟩ := List.mem_filterMap.mp hd'
      exact ⟨id, mem_wantedIds.mp hid, hfind⟩
    · rintro ⟨id, hmem, hfind⟩
      refine ⟨_, ⟨t, ⟨(t, id), hmem, rfl⟩, rfl⟩,
        List.mem_reverse.mpr (List.mem_map_of_mem ?_)⟩
      exact List.mem_filterMap.mpr ⟨id, mem_wantedIds.mpr hmem, hfind⟩

/-- What the documents of a branch lead to is what the references of its edges refer to. -/
theorem mem_references_of_leadsTo {s : Store} {catalog : Catalog} {documents : List Document}
    {d : Document} (hd : d ∈ documents) {relation : String} {t : Target} {found : Document}
    (hleads : LeadsTo s catalog d relation t found) (tree : NameTree) :
    ∃ id, (t, id) ∈ (Branch.edge catalog documents relation tree).references ∧
      s.find? t.name id = some found := by
  obtain ⟨r, ids, href, rfl, id, hid, hfind⟩ := hleads
  refine ⟨id, List.mem_flatMap.mpr ⟨(r, ids), ?_, List.mem_map_of_mem hid⟩, hfind⟩
  exact List.mem_filterMap.mpr ⟨d, hd, href⟩

/-- One level: what the edges of branches refer to is held afterwards, and the cache stays sound and
    keeps what it held. -/
theorem outcome_fetchWanted_edges {s : Store} (hs : s.Filed) (edges : List Edge) {cache : Cache}
    (hsound : cache.Sound s) :
    ∃ cache', (fetchWanted (wanted cache edges) cache).outcome (.ofStore s) = .ok cache' ∧
      cache ⊆ cache' ∧ cache'.Sound s ∧
      ∀ e ∈ edges, ∀ t id, (t, id) ∈ e.references → ∀ d, s.find? t.name id = some d →
        (t, d) ∈ cache' := by
  obtain ⟨cache', hfetch, hmem⟩ := outcome_fetchWanted s (wanted cache edges) cache
  refine ⟨cache', hfetch, fun ⟨t, d⟩ hheld => (hmem t d).mpr (.inl hheld), ?_, ?_⟩
  · intro t d hheld
    rcases (hmem t d).mp hheld with hheld | ⟨id, -, hfind⟩
    · exact hsound t d hheld
    · rwa [hs.id_of_find? hfind]
  · intro e he t id href d hfind
    cases hcached : cache.find? t id with
    -- What the cache does not answer was read, and what it answers is what the store holds.
    | none =>
      refine (hmem t d).mpr (.inr ⟨id, List.mem_filter.mpr ⟨?_, by simp [hcached]⟩, hfind⟩)
      exact List.mem_flatMap.mpr ⟨e, he, href⟩
    | some d' =>
      have hsame : d' = d := by simpa [hfind] using (hsound.find?_store hcached).symm
      exact (hmem t d).mpr (.inl (hsame ▸ (Cache.mem_of_find? hcached).1))

/-- The next level goes on from every document that an edge leads to, if there is more to follow. -/
theorem Edge.exists_branch {cache : Cache} {e : Edge} (hmore : ¬ e.tree.isEmpty) {t : Target}
    {id : String} (href : (t, id) ∈ e.references) {found : Document}
    (hfind : cache.find? t id = some found) :
    ∃ b, e.branch? cache = some b ∧ b.tree = e.tree ∧ found ∈ b.documents := by
  have hmem : found ∈ e.references.eraseDups.filterMap fun reference =>
      cache.find? reference.1 reference.2 :=
    List.mem_filterMap.mpr ⟨(t, id), List.mem_eraseDups.mpr href, hfind⟩
  have hnonempty := List.ne_nil_of_mem hmem
  refine ⟨⟨e.tree, _⟩, ?_, rfl, hmem⟩
  have hcondition : ¬ (e.tree.isEmpty || (e.references.eraseDups.filterMap fun reference =>
      cache.find? reference.1 reference.2).isEmpty) = true := by simp [hmore, hnonempty]
  exact if_neg hcondition

theorem Edge.tree_of_branch? {cache : Cache} {e : Edge} {b : Branch}
    (hbranch : e.branch? cache = some b) :
    b.tree = e.tree := by
  simp only [branch?] at hbranch
  split at hbranch
  · cases hbranch
  · cases hbranch
    rfl

/-- Where a level holds what its edges refer to, and the next one covers the branches that go on
    from there, all of the level is covered. -/
theorem covers_of_next {s : Store} (hs : s.Filed) {catalog : Catalog} {branches : List Branch}
    {cache later : Cache} (hsound : cache.Sound s) (hsub : cache ⊆ later)
    (hheld : ∀ e ∈ branches.flatMap (Branch.edges catalog), ∀ t id,
      (t, id) ∈ e.references →
      ∀ d, s.find? t.name id = some d → (t, d) ∈ cache)
    (hnext : ∀ b ∈ (branches.flatMap (Branch.edges catalog)).filterMap (Edge.branch? cache),
      ∀ d ∈ b.documents, Covers s catalog later b.tree d) :
    ∀ b ∈ branches, ∀ d ∈ b.documents, Covers s catalog later b.tree d := by
  intro b hb d hd
  obtain ⟨⟨children⟩, documents⟩ := b
  have hedge : ∀ relation child, (relation, child) ∈ children →
      Branch.edge catalog documents relation child ∈ branches.flatMap (Branch.edges catalog) :=
    fun relation child hmem => List.mem_flatMap.mpr ⟨_, hb, List.mem_map_of_mem hmem⟩
  refine .node (fun relation child hmem t found hleads => ?_)
    fun relation child hmem t found hleads => ?_
  · obtain ⟨id, href, hfind⟩ := mem_references_of_leadsTo hd hleads child
    exact hsub (hheld _ (hedge relation child hmem) t id href found hfind)
  · by_cases hempty : child.isEmpty
    · exact covers_of_isEmpty hempty s catalog later found
    · obtain ⟨id, href, hfind⟩ := mem_references_of_leadsTo hd hleads child
      have hcached := hsound.find?_eq hs (hheld _ (hedge relation child hmem) t id href)
      obtain ⟨next, hbranch, htree, hfound⟩ :=
        Edge.exists_branch hempty href (hcached.trans hfind)
      have hcovers :=
        hnext next (List.mem_filterMap.mpr ⟨_, hedge relation child hmem, hbranch⟩) found hfound
      rwa [htree] at hcovers

/-- The branches of the next level are lower by one. -/
theorem height_le_of_next {catalog : Catalog} {branches : List Branch} {levels : Nat}
    {cache : Cache} (hheight : ∀ b ∈ branches, b.tree.height ≤ levels + 1) :
    ∀ b ∈ (branches.flatMap (Branch.edges catalog)).filterMap (Edge.branch? cache),
      b.tree.height ≤ levels := by
  intro next hnext
  obtain ⟨e, he, hbranch⟩ := List.mem_filterMap.mp hnext
  obtain ⟨⟨⟨children⟩, documents⟩, hb, hedge⟩ := List.mem_flatMap.mp he
  obtain ⟨entry, hentry, rfl⟩ := List.mem_map.mp hedge
  have hlt := NameTree.height_lt_of_mem hentry
  have hle := hheight _ hb
  rw [Edge.tree_of_branch? hbranch]
  exact Nat.le_of_lt_succ (Nat.lt_of_lt_of_le hlt hle)

/-- Reading level by level leaves a sound cache that covers all branches, when there are levels
    enough. What a level reads is held from then on, and the branches of the next level start from
    it. -/
theorem outcome_gather {s : Store} (hs : s.Filed) (catalog : Catalog) (levels : Nat)
    (branches : List Branch) {cache : Cache} (hsound : cache.Sound s) (warnings : List Warning)
    (hheight : ∀ b ∈ branches, b.tree.height ≤ levels) :
    ∃ cache' warnings', (gather catalog levels branches cache warnings).outcome (.ofStore s) =
        .ok (cache', warnings') ∧ cache ⊆ cache' ∧ cache'.Sound s ∧
      ∀ b ∈ branches, ∀ d ∈ b.documents, Covers s catalog cache' b.tree d := by
  induction levels generalizing branches cache warnings with
  | zero =>
    refine ⟨cache, warnings, rfl, List.Subset.refl _, hsound, fun b hb d _ => ?_⟩
    by_cases hempty : b.tree.isEmpty
    · exact covers_of_isEmpty hempty s catalog cache d
    · exact absurd (hheight b hb) (Nat.not_le_of_lt (NameTree.height_pos hempty))
  | succ levels ih =>
    cases branches with
    | nil => exact ⟨cache, warnings, rfl, List.Subset.refl _, hsound, fun _ hb => by cases hb⟩
    | cons first rest =>
      obtain ⟨level, hfetch, hsub, hlevel, hheld⟩ :=
        outcome_fetchWanted_edges hs ((first :: rest).flatMap (Branch.edges catalog)) hsound
      unfold gather
      rw [Reading.outcome_bind_of_ok hfetch]
      obtain ⟨later, warnings', hgather, hsub', hlater, hnext⟩ :=
        ih _ hlevel _ (height_le_of_next hheight)
      refine ⟨later, warnings', hgather, List.Subset.trans hsub hsub', hlater, ?_⟩
      exact covers_of_next hs hlevel hsub' hheld hnext

/-- Without a relation to hydrate a document stays as it is. -/
theorem hydrate_of_isEmpty {tree : NameTree} (hempty : tree.isEmpty) (catalog : Catalog)
    (find? : Target → String → Option Document) (d : Document) :
    hydrate catalog find? tree d = d := by
  obtain ⟨children⟩ := tree
  obtain rfl : children = [] := List.isEmpty_iff.mp hempty
  rfl

/-- So does every document of a page. -/
theorem map_hydrate_of_isEmpty {tree : NameTree} (hempty : tree.isEmpty) (catalog : Catalog)
    (find? : Target → String → Option Document) (documents : List Document) :
    documents.map (hydrate catalog find? tree) = documents := by
  rw [funext (hydrate_of_isEmpty hempty catalog find?)]
  exact List.map_id documents

/-- Hydrating a page on a store in memory never fails, and each document comes out as if every
    reference were looked up in the store. -/
theorem outcome_run {s : Store} (hs : s.Filed) (config : Config) (catalog : Catalog)
    (chains : List Chain) (documents : List Document) :
    ∃ warnings, (run config catalog chains documents).outcome (.ofStore s) =
      .ok (documents.map (hydrate catalog (fun t id => s.find? t.name id)
        (tree chains config.maxHydrationDepth).1), warnings) := by
  unfold run
  obtain ⟨tree, warnings⟩ := Hydration.tree chains config.maxHydrationDepth
  by_cases hskip : tree.isEmpty || documents.isEmpty
  · refine ⟨warnings, ?_⟩
    simp only
    rw [if_pos hskip, Reading.outcome_pure]
    rcases Bool.or_eq_true_iff.mp hskip with hempty | hempty
    · rw [map_hydrate_of_isEmpty hempty]
    · rw [List.isEmpty_iff.mp hempty, List.map_nil]
  · obtain ⟨cache, warnings', hgather, -, hsound, hcovers⟩ :=
      outcome_gather hs catalog tree.height [⟨tree, documents⟩] (Cache.sound_nil s) warnings
        fun b hb => List.mem_singleton.mp hb ▸ Nat.le_refl _
    refine ⟨warnings', ?_⟩
    simp only
    rw [if_neg hskip, Reading.outcome_bind_of_ok hgather, Reading.outcome_pure]
    refine congrArg (fun found => Except.ok (found, warnings')) (List.map_congr_left fun d hd => ?_)
    exact hydrate_eq_of_covers hs hsound (hcovers _ (List.mem_singleton_self _) d hd)

/-- On a store in memory, cyclic references and references to nothing included, hydrating a page
    level by level from a cache comes to what hydrating each document alone comes to when every
    reference is looked up in the store: the same documents in the same order, whatever others are
    on the page. The relations of a document are followed in the order of their names. Every
    document that is hydrated so, of the page or below one, has under the name of a relation the
    documents that its reference leads to, and its own data under every name that no relation is
    written to. -/
theorem run_hydrates_each_directly {s : Store} (hreached : s.Reachable) (config : Config)
    (catalog : Catalog) (chains : List Chain) (documents : List Document) :
    (tree chains config.maxHydrationDepth).1.Ordered ∧
    (∃ warnings, (run config catalog chains documents).outcome (.ofStore s) =
      .ok (documents.map (hydrate catalog (fun t id => s.find? t.name id)
        (tree chains config.maxHydrationDepth).1), warnings)) ∧
    ∀ (below : NameTree) (d : Document), Renders catalog (fun t id => s.find? t.name id) below d
      (hydrate catalog (fun t id => s.find? t.name id) below d) :=
  ⟨NameTree.ordered_ofPaths _, outcome_run hreached.filed config catalog chains documents,
    renders_hydrate⟩

/-- The post shows its author, who shows the post again; the second post shows that there is
    none. -/
theorem run_hydrates_sample_posts :
    Store.sample.Reachable ∧ ∃ hydrated warnings,
      (run {} ⟨{}, Store.sample.names⟩ [⟨["author", "post"]⟩]
        ((Store.sample.documents "posts").map (·.2))).outcome (.ofStore Store.sample) =
          .ok (hydrated, warnings) ∧
      hydrated.map (fun d => Entries.get? "author" d.data) =
        [some (Document.entity { Store.sampleUser with
          data := Store.sampleUser.data ++ [("post", Store.samplePost.entity)] }),
            some .null, none] := by
  obtain ⟨-, ⟨warnings, hrun⟩, -⟩ := run_hydrates_each_directly Store.reachable_sample {}
    ⟨{}, Store.sample.names⟩ [⟨["author", "post"]⟩]
    ((Store.sample.documents "posts").map (·.2))
  exact ⟨Store.reachable_sample, _, warnings, hrun, by decide +kernel⟩

end DocQuery.Hydration
