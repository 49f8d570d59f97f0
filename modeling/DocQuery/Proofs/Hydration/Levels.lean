import DocQuery.Proofs.Engine.Reads
import DocQuery.Proofs.Hydration.Direct

namespace DocQuery.Hydration

/-- The reads that are made for references: one for each target, of the ids that are wanted of
    it. -/
def fetches (references : List (Target × String)) : List (Target × List String) :=
  (Sorted.ofList (references.map (·.1))).map fun t => (t, wantedIds references t)

private theorem reads_fetchWanted (s : Store) (references : List (Target × String))
    (cache : Cache) :
    (fetchWanted references cache).reads (.ofStore s) =
      (fetches references).map fun f => .fetch f.1.name f.2 := by
  unfold fetchWanted fetches
  rw [Reading.reads_foldlM (r := fun t => [.fetch t.name (wantedIds references t)])
    (fun _ _ => ⟨_, rfl⟩) (fun _ _ => rfl), List.map_map]
  exact List.map_eq_flatMap.symm

private theorem nodup_fetches (references : List (Target × String)) :
    ((fetches references).map (·.1)).Nodup := by
  unfold fetches
  rw [List.map_map]
  exact (List.map_id _).symm ▸ Sorted.nodup_ofList _

private theorem mem_fetches {references : List (Target × String)} {f : Target × List String}
    (hf : f ∈ fetches references) : f.2 = wantedIds references f.1 := by
  obtain ⟨t, -, rfl⟩ := List.mem_map.mp hf
  rfl

private theorem pairwise_wantedIds (references : List (Target × String)) (t : Target) :
    (wantedIds references t).Pairwise (· < ·) :=
  (Sorted.pairwise_ofList _).imp fun hlt => compareOfLessAndEq_eq_lt.mp hlt

/-- The levels in which documents are found on a store, each given by its reads, starting from
    branches and from what a cache holds. There is one more level as long as there are branches to
    go on from. -/
inductive Levels (s : Store) (catalog : Catalog) :
    List Branch → Cache → List (List (Target × List String)) → Prop where
  | done (cache : Cache) : Levels s catalog [] cache []
  | next {branches : List Branch} {cache held : Cache} {later : List (List (Target × List String))}
      (more : branches ≠ [])
      (fetched : (fetchWanted
        (wanted cache (branches.flatMap (Branch.edges catalog))) cache).outcome
        (.ofStore s) = .ok held)
      (further : Levels s catalog
        ((branches.flatMap (Branch.edges catalog)).filterMap (Edge.branch? held))
        held later) :
      Levels s catalog branches cache
        (fetches (wanted cache (branches.flatMap (Branch.edges catalog))) :: later)

/-- The branch that hydration starts from, if there is anything to follow. -/
def start (tree : NameTree) (documents : List Document) : List Branch :=
  if tree.isEmpty || documents.isEmpty then [] else [⟨tree, documents⟩]

private theorem Edge.more_of_branch? {cache : Cache} {e : Edge} {b : Branch}
    (hbranch : e.branch? cache = some b) :
    ¬ b.tree.isEmpty := by
  rw [tree_of_branch? hbranch]
  intro hempty
  simp [branch?, hempty] at hbranch

/-- Branches go on only where there is a relation to follow, so the height of their trees bounds the
    levels. -/
theorem exists_levels (s : Store) (catalog : Catalog) (n : Nat) (branches : List Branch)
    (cache : Cache) (warnings : List Warning) (hmore : ∀ b ∈ branches, ¬ b.tree.isEmpty)
    (hheight : ∀ b ∈ branches, b.tree.height ≤ n) :
    ∃ levels, Levels s catalog branches cache levels ∧ levels.length ≤ n ∧
      (gather catalog n branches cache warnings).reads (.ofStore s) =
        levels.flatten.map fun f => .fetch f.1.name f.2 := by
  induction n generalizing branches cache warnings with
  | zero =>
    cases branches with
    | nil => exact ⟨[], .done cache, Nat.le_refl _, rfl⟩
    | cons first rest =>
      have hpos := NameTree.height_pos (hmore first List.mem_cons_self)
      exact absurd (hheight first List.mem_cons_self) (Nat.not_le_of_lt hpos)
  | succ n ih =>
    cases branches with
    | nil => exact ⟨[], .done cache, Nat.zero_le _, rfl⟩
    | cons first rest =>
      obtain ⟨held, hfetch, -⟩ :=
        outcome_fetchWanted s (wanted cache ((first :: rest).flatMap (Branch.edges catalog))) cache
      have hbelow :
          ∀ b ∈ ((first :: rest).flatMap (Branch.edges catalog)).filterMap (Edge.branch? held),
          ¬ b.tree.isEmpty := by
        intro b hb
        obtain ⟨e, -, hbranch⟩ := List.mem_filterMap.mp hb
        exact Edge.more_of_branch? hbranch
      obtain ⟨later, hlevels, hlength, hreads⟩ := ih _ held
        (Warning.merge warnings
          (((first :: rest).flatMap (Branch.edges catalog)).flatMap Edge.warnings))
        hbelow (height_le_of_next hheight)
      refine ⟨_, .next (List.cons_ne_nil _ _) hfetch hlevels, Nat.succ_le_succ hlength, ?_⟩
      unfold gather
      rw [Reading.reads_bind_of_ok hfetch, reads_fetchWanted, hreads,
        List.flatten_cons, List.map_append]

/-- Whether the levels of reads are those of a batch: no level reads a target twice, ids are asked
    for in strictly ascending order, and what an earlier level's read of a target has returned is
    not asked of that target again. -/
structure IsBatched (s : Store) (levels : List (List (Target × List String))) : Prop where
  once : ∀ level ∈ levels, (level.map (·.1)).Nodup
  ascending : ∀ level ∈ levels, ∀ f ∈ level, f.2.Pairwise (· < ·)
  fresh : levels.Pairwise fun earlier later => ∀ f ∈ earlier, ∀ d ∈ s.fetch f.1.name f.2,
    ∀ g ∈ later, g.1 = f.1 → d.id ∉ g.2

private theorem Cache.find?_ne_none {cache : Cache} {t : Target} {d : Document}
    (hheld : (t, d) ∈ cache) :
    cache.find? t d.id ≠ none := by
  intro hnone
  have hmissed := List.find?_eq_none.mp (Option.map_eq_none_iff.mp hnone) _ hheld
  simp at hmissed

/-- What the cache holds is not asked for at any level. -/
theorem Levels.not_mem_of_held {s : Store} {catalog : Catalog} {branches : List Branch}
    {cache : Cache} {levels : List (List (Target × List String))}
    (hlevels : Levels s catalog branches cache levels) {t : Target} {d : Document}
    (hheld : (t, d) ∈ cache) :
    ∀ level ∈ levels, ∀ g ∈ level, g.1 = t → d.id ∉ g.2 := by
  induction hlevels with
  | done cache => exact List.forall_mem_nil _
  | @next branches cache held later _ fetched _ ih =>
    obtain ⟨cache', hfetch, hmem⟩ := outcome_fetchWanted s _ cache
    obtain rfl : held = cache' := Except.ok.inj (fetched.symm.trans hfetch)
    refine List.forall_mem_cons.mpr ⟨?_, ih ((hmem t d).mpr (.inl hheld))⟩
    rintro g hg rfl hasked
    rw [mem_fetches hg, mem_wantedIds] at hasked
    have hunanswered := (List.mem_filter.mp hasked).2
    exact Cache.find?_ne_none hheld (Option.isNone_iff_eq_none.mp hunanswered)

/-- Reads that are made in levels are made in batches. -/
theorem Levels.isBatched {s : Store} {catalog : Catalog} {branches : List Branch} {cache : Cache}
    {levels : List (List (Target × List String))}
    (hlevels : Levels s catalog branches cache levels) :
    IsBatched s levels := by
  induction hlevels with
  | done cache => exact ⟨List.forall_mem_nil _, List.forall_mem_nil _, .nil⟩
  | @next branches cache held later _ fetched further ih =>
    obtain ⟨cache', hfetch, hmem⟩ := outcome_fetchWanted s _ cache
    obtain rfl : held = cache' := Except.ok.inj (fetched.symm.trans hfetch)
    refine ⟨List.forall_mem_cons.mpr ⟨nodup_fetches _, ih.once⟩,
      List.forall_mem_cons.mpr ⟨fun f hf => ?_, ih.ascending⟩,
      .cons (fun level hlevel f hf d hd => ?_) ih.fresh⟩
    · exact mem_fetches hf ▸ pairwise_wantedIds _ f.1
    · rw [mem_fetches hf] at hd
      obtain ⟨id, hid, hfind⟩ := List.mem_filterMap.mp hd
      exact further.not_mem_of_held
        ((hmem f.1 d).mpr (.inr ⟨id, mem_wantedIds.mp hid, hfind⟩)) level hlevel

/-- The tree of chains is as high as the configuration allows and the longest chain at most. -/
theorem height_tree_le (chains : List Chain) (max : Nat) :
    (tree chains max).1.height ≤ min max ((chains.map Chain.depth).max?.getD 0) := by
  refine NameTree.height_ofPaths_le fun path hpath => ?_
  obtain ⟨chain, hchain, rfl⟩ := List.mem_map.mp hpath
  have hlongest := List.le_max?_getD_of_mem (k := 0) (List.mem_map_of_mem (f := Chain.depth) hchain)
  rw [List.length_take]
  exact Nat.le_min.mpr ⟨Nat.min_le_left _ _, Nat.le_trans (Nat.min_le_right _ _) hlongest⟩

/-- On a store in memory, cyclic references included, hydrating a page reads in levels: as many at
    most as the configuration allows and the longest chain has relations, each with one read at most
    for a target, and none that asks a target for what it has already returned. The levels go on
    until there is nothing more to follow, and the page makes no other reads. -/
theorem reads_run_by_levels (s : Store) (config : Config) (catalog : Catalog) (chains : List Chain)
    (documents : List Document) :
    ∃ levels, Levels s catalog
      (start (tree chains config.maxHydrationDepth).1 documents) [] levels ∧
      (run config catalog chains documents).reads (.ofStore s) =
        levels.flatten.map (fun f => .fetch f.1.name f.2) ∧
      levels.length ≤ min config.maxHydrationDepth ((chains.map Chain.depth).max?.getD 0) ∧
      IsBatched s levels := by
  have hbound := height_tree_le chains config.maxHydrationDepth
  unfold run start
  generalize Hydration.tree chains config.maxHydrationDepth = merged at hbound ⊢
  obtain ⟨tree, warnings⟩ := merged
  simp only at hbound ⊢
  by_cases hskip : tree.isEmpty || documents.isEmpty
  · rw [if_pos hskip, if_pos hskip]
    have hdone : Levels s catalog [] [] [] := .done []
    exact ⟨[], hdone, rfl, Nat.zero_le _, hdone.isBatched⟩
  · have hmore : ¬ tree.isEmpty := fun hempty => hskip (by rw [hempty, Bool.true_or])
    obtain ⟨levels, hlevels, hlength, hreads⟩ :=
      exists_levels s catalog tree.height [⟨tree, documents⟩] []
      warnings (fun b hb => List.mem_singleton.mp hb ▸ hmore) fun b hb =>
        List.mem_singleton.mp hb ▸ Nat.le_refl _
    rw [if_neg hskip, if_neg hskip]
    exact ⟨levels, hlevels, (Reading.reads_bind_pure _ _ _).trans hreads,
      Nat.le_trans hlength hbound,
      hlevels.isBatched⟩

/-- The posts lead to the user, who leads to a post, and the chain is followed no further. -/
example : (run {} ⟨{}, Store.sample.names⟩ [⟨["author", "post", "author"]⟩]
    ((Store.sample.documents "posts").map (·.2))).reads (.ofStore Store.sample) =
      [.fetch "users" ["u1", "u9"], .fetch "posts" ["p1"]] := rfl

end DocQuery.Hydration
