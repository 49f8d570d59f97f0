import DocQuery.Proofs.Engine.Pages
import DocQuery.Proofs.Filter.Scans
import DocQuery.Proofs.Relation.Warnings

namespace DocQuery

open Reading (outcome_bind_eq_ok_iff outcome_mapM_eq_ok_iff)

variable {b : Backend} {catalog : Catalog} {config : Config}

namespace Clause

/-- A path warns of the relations that are looked up for it, and of no other. -/
theorem mem_warnings_resolvePath {target : String} {op : Operator} {value : Literal}
    {relations : List String} {r : Resolved}
    (hok : (resolvePath catalog target op value relations).outcome b = .ok r) {w : Warning} :
    w ∈ r.warnings ↔ ∃ relation ∈ relations.take (FieldPath.hops ⟨relations, target⟩),
      w ∈ Reference.warnings (catalog.candidates relation) := by
  induction relations generalizing r with
  | nil =>
    cases hok
    simp
  | cons relation rest ih =>
    unfold resolvePath at hok
    by_cases hexists : rest = [] ∧ target = ""
    · simp only [if_pos hexists] at hok
      obtain ⟨p, -, hr⟩ := outcome_bind_eq_ok_iff.mp hok
      cases hr
      obtain ⟨rfl, rfl⟩ := hexists
      have hnone : FieldPath.hops ⟨[relation], ""⟩ = 0 := rfl
      simp [hnone]
    · simp only [if_neg hexists] at hok
      obtain ⟨inner, hinner, hok⟩ := outcome_bind_eq_ok_iff.mp hok
      obtain ⟨found, -, hr⟩ := outcome_bind_eq_ok_iff.mp hok
      cases hr
      rw [Warning.mem_merge_iff, ih hinner, FieldPath.hops_cons hexists, List.take_succ_cons]
      simp

end Clause

namespace Filter

/-- The warnings of a filter are those of its clauses, brought together. -/
theorem exists_resolved {f : Filter} {predicate : Option Predicate} {ws : List Warning}
    (hok : (f.resolve config catalog).outcome b = .ok (predicate, ws)) :
    ∃ rs, List.Forall₂
      (fun c r => (Clause.resolve catalog c).outcome b = .ok r) f.clauses rs ∧
      ws = rs.foldl (fun ws r => Warning.merge ws r.warnings) [] := by
  unfold resolve at hok
  obtain ⟨-, -, hok⟩ := outcome_bind_eq_ok_iff.mp hok
  split at hok
  · next hempty =>
    cases hok
    exact ⟨[], List.isEmpty_iff.mp hempty ▸ .nil, rfl⟩
  · obtain ⟨required, hrequired, hok⟩ := outcome_bind_eq_ok_iff.mp hok
    obtain ⟨groups, hgroups, hok⟩ := outcome_bind_eq_ok_iff.mp hok
    cases hok
    simp only [outcome_mapM_eq_ok_iff] at hrequired hgroups
    refine ⟨required ++ groups.flatten, ?_, rfl⟩
    rw [clauses_eq_append, List.flatMap_def]
    exact List.rel_append hrequired (List.rel_flatten (List.forall₂_map_left_iff.mpr hgroups))

/-- A filter warns of the relations that are looked up for its clauses, of each in full and of no
    other. -/
theorem mem_warnings_resolve {f : Filter} {predicate : Option Predicate} {ws : List Warning}
    (hok : (f.resolve config catalog).outcome b = .ok (predicate, ws)) {w : Warning} :
    w ∈ ws ↔ ∃ c ∈ f.clauses, ∃ relation ∈ c.path.relations.take c.path.hops,
      w ∈ Reference.warnings (catalog.candidates relation) := by
  obtain ⟨rs, hresolved, rfl⟩ := exists_resolved hok
  rw [Warning.mem_foldl_merge_iff, or_iff_right List.not_mem_nil]
  clear hok
  generalize f.clauses = clauses at hresolved ⊢
  induction hresolved with
  | nil => simp
  | cons hr _ ih =>
    rw [List.exists_mem_cons_iff, List.exists_mem_cons_iff, Clause.mem_warnings_resolvePath hr, ih]

private theorem nodup_warnings_resolve {f : Filter} {predicate : Option Predicate}
    {ws : List Warning} (hok : (f.resolve config catalog).outcome b = .ok (predicate, ws)) :
    ws.Nodup := by
  obtain ⟨rs, -, rfl⟩ := exists_resolved hok
  exact Warning.nodup_foldl_merge List.nodup_nil

end Filter

namespace Hydration

/-- Exactly the chains over the limit are warned of. -/
theorem mem_warnings_tree_iff {chains : List Chain} {max : Nat} {w : Warning} :
    w ∈ (tree chains max).2 ↔ ∃ chain ∈ chains, max < chain.depth ∧
      w = .chainTooLong chain.text max := by
  simp only [tree, Warning.mem_merge_iff, List.not_mem_nil, false_or, List.mem_map, List.mem_filter,
    decide_eq_true_eq, and_assoc, @eq_comm _ w]

/-- Whether warnings are some that were known, with others of references whose collections are
    missing. -/
structure AddsAssumptions (catalog : Catalog) (known ws : List Warning) : Prop where
  nodup : known.Nodup → ws.Nodup
  kept : known ⊆ ws
  added : ∀ w ∈ ws, w ∈ known ∨ ∃ relation, ∃ r ∈ catalog.candidates relation,
    catalog.Lacks r.plural ∧ w = catalog.assumption r

namespace AddsAssumptions

theorem refl (known : List Warning) : AddsAssumptions catalog known known :=
  ⟨id, List.Subset.refl known, fun _ => Or.inl⟩

theorem trans {first second third : List Warning} (hfirst : AddsAssumptions catalog first second)
    (hsecond : AddsAssumptions catalog second third) : AddsAssumptions catalog first third := by
  refine ⟨hsecond.nodup ∘ hfirst.nodup,
    List.Subset.trans hfirst.kept hsecond.kept, fun w hw => ?_⟩
  exact (hsecond.added w hw).elim (hfirst.added w) .inr

end AddsAssumptions

private theorem warning?_of_mem_edges {branch : Branch} {e : Edge} (he : e ∈ branch.edges catalog)
    {w : Warning} (hw : w ∈ e.warnings) :
    ∃ relation, ∃ r ∈ catalog.candidates relation, r.warning? = some w := by
  obtain ⟨⟨relation, child⟩, -, rfl⟩ := List.mem_map.mp he
  obtain ⟨⟨r, ids⟩, hheld, hwarning⟩ := List.mem_filterMap.mp hw
  obtain ⟨d, -, href⟩ := List.mem_filterMap.mp hheld
  obtain ⟨candidate, hcandidate, hvalue⟩ := List.exists_of_findSome?_eq_some href
  obtain ⟨value, -, hr⟩ := Option.map_eq_some_iff.mp hvalue
  cases hr
  exact ⟨relation, r, hcandidate, hwarning⟩

/-- Every level of hydration adds what the references say that it follows. -/
theorem addsAssumptions_gather {levels : Nat} {branches : List Branch} {cache cache' : Cache}
    {known ws : List Warning}
    (hok : (gather catalog levels branches cache known).outcome b = .ok (cache', ws)) :
    AddsAssumptions catalog known ws := by
  induction levels generalizing branches cache known with
  | zero =>
    cases hok
    exact .refl _
  | succ levels ih =>
    cases branches with
    | nil =>
      cases hok
      exact .refl _
    | cons first rest =>
      obtain ⟨found, -, hok⟩ := outcome_bind_eq_ok_iff.mp hok
      refine .trans ⟨fun hknown => Warning.nodup_merge hknown _,
        fun w hw => Warning.mem_merge_iff.mpr (.inl hw),
        fun w hw => (Warning.mem_merge_iff.mp hw).imp_right fun hnew => ?_⟩ (ih hok)
      obtain ⟨e, he, hw⟩ := List.mem_flatMap.mp hnew
      obtain ⟨branch, -, he⟩ := List.mem_flatMap.mp he
      obtain ⟨relation, r, hr, hwarning⟩ := warning?_of_mem_edges he hw
      exact ⟨relation, r, hr,
        (Catalog.warning?_of_resolve? (Catalog.resolve?_of_mem_candidates hr)).mp hwarning⟩

/-- Beside the warnings of its chains, hydration gives those of assumed targets only. -/
theorem addsAssumptions_run {chains : List Chain} {documents hydrated : List Document}
    {ws : List Warning}
    (hok : (run config catalog chains documents).outcome b = .ok (hydrated, ws)) :
    AddsAssumptions catalog (tree chains config.maxHydrationDepth).2 ws := by
  unfold run at hok
  simp only at hok
  split at hok
  · cases hok
    exact .refl _
  · obtain ⟨⟨cache, gathered⟩, hgather, hok⟩ := outcome_bind_eq_ok_iff.mp hok
    cases hok
    exact addsAssumptions_gather hgather

end Hydration

/-- Whether warnings are what the caller of a query should know where collections have some names.
    None comes twice. Each missing collection that is named is that of a field, leads to no
    collection and is replaced by the users; every one that a look-up for a clause would lead to is
    named; and the chains that are longer than the limit are named, and no others. -/
structure Query.Informs (config : Config) (names : List String) (q : Query) (ws : List Warning) :
    Prop where
  nodup : ws.Nodup
  assumed : ∀ field missing fallback, .assumedTarget field missing fallback ∈ ws →
    missing ∉ config.users.aliases ∧ missing ∉ names ∧
    fallback = config.users.collection ∧
      ∃ r, Catalog.resolve? ⟨config.users, names⟩ field = some r ∧ r.plural = missing
  lookedUp : ∀ c ∈ q.filter.clauses, ∀ relation ∈ c.path.relations.take c.path.hops,
    ∀ r ∈ Catalog.candidates ⟨config.users, names⟩ relation,
      r.plural ∉ config.users.aliases → r.plural ∉ names →
        ∃ field, .assumedTarget field r.plural config.users.collection ∈ ws
  tooLong : ∀ text max, .chainTooLong text max ∈ ws ↔
    max = config.maxHydrationDepth ∧ ∃ chain ∈ q.chains,
      max < chain.depth ∧ chain.text = text

namespace Engine

variable {q : Query} {names : List String}

/-- What the clauses of a query and the hydration of its page say is what the caller should know. -/
theorem informs_merge {ws more : List Warning} (hnodup : ws.Nodup)
    (hclauses : ∀ w, w ∈ ws ↔ ∃ c ∈ q.filter.clauses,
      ∃ relation ∈ c.path.relations.take c.path.hops,
      w ∈ Reference.warnings (Catalog.candidates ⟨config.users, names⟩ relation))
    (hmore : Hydration.AddsAssumptions ⟨config.users, names⟩
      (Hydration.tree q.chains config.maxHydrationDepth).2 more) :
    q.Informs config names (Warning.merge ws more) := by
  -- A warning that is no chain's is of a reference whose collection is missing.
  have hsource : ∀ w ∈ Warning.merge ws more,
      w ∈ (Hydration.tree q.chains config.maxHydrationDepth).2 ∨
      ∃ relation, ∃ r ∈ Catalog.candidates ⟨config.users, names⟩ relation,
        Catalog.Lacks ⟨config.users, names⟩ r.plural ∧
        w = Catalog.assumption ⟨config.users, names⟩ r := by
    intro w hw
    rcases Warning.mem_merge_iff.mp hw with hw | hw
    · obtain ⟨c, -, relation, -, hw⟩ := (hclauses w).mp hw
      exact .inr ⟨relation, Catalog.exists_candidate_of_mem_warnings hw⟩
    · exact hmore.added w hw
  refine ⟨Warning.nodup_merge hnodup more, fun field missing fallback hw => ?_,
    fun c hc relation hrelation r hr halias hname => ?_, fun text max => ?_⟩
  · rcases hsource _ hw with hw | ⟨relation, r, hr, hlacks, hw⟩
    · obtain ⟨chain, -, -, hw⟩ := Hydration.mem_warnings_tree_iff.mp hw
      cases hw
    · cases hw
      exact ⟨hlacks.noUsers, hlacks.noCollection, rfl, r,
        Catalog.resolve?_of_mem_candidates hr, rfl⟩
  · obtain ⟨field, hw⟩ := Catalog.exists_warning_of_mem_candidates hr ⟨halias, hname⟩
    exact ⟨field,
      Warning.mem_merge_iff.mpr (.inl ((hclauses _).mpr ⟨c, hc, relation, hrelation, hw⟩))⟩
  · constructor
    · intro hw
      rcases hsource _ hw with hw | ⟨relation, r, hr, hlacks, hw⟩
      · obtain ⟨chain, hchain, hdepth, hw⟩ := Hydration.mem_warnings_tree_iff.mp hw
        cases hw
        exact ⟨rfl, chain, hchain, hdepth, rfl⟩
      · cases hw
    · rintro ⟨rfl, chain, hchain, hdepth, rfl⟩
      exact Warning.mem_merge_iff.mpr
        (.inr (hmore.kept (Hydration.mem_warnings_tree_iff.mpr ⟨chain, hchain, hdepth, rfl⟩)))

/-- The catalog names the collections of the store, unless the query walks no relation at all. -/
theorem catalogFor_cases {s : Store} {catalog : Catalog}
    (hcatalog : (catalogFor config q).outcome (.ofStore s) = .ok catalog) :
    catalog = ⟨config.users, s.names⟩ ∨
      (∀ c ∈ q.filter.clauses, c.path.relations = []) ∧ q.chains = [] ∧
      catalog = ⟨config.users, []⟩ := by
  unfold catalogFor at hcatalog
  split at hcatalog
  · cases hcatalog
    exact .inl rfl
  · next hneeds =>
    cases hcatalog
    refine .inr ?_
    simpa [Query.needsCatalog, FieldPath.isDirect] using hneeds

/-- An answered query comes with the warnings that its caller should know, whether or not there is
    anything on its page. -/
theorem informs_of_run {s : Store} {answer : Answer}
    (hrun : (run config q).outcome (.ofStore s) = .ok answer) :
    q.Informs config s.names answer.warnings := by
  obtain ⟨catalog, predicate, ws, hydrated, more, hcatalog, hresolve, hhydrate, rfl⟩ :=
    exists_steps_of_run hrun
  have hnodup := Filter.nodup_warnings_resolve hresolve
  have hclauses := fun w => Filter.mem_warnings_resolve (w := w) hresolve
  rcases catalogFor_cases hcatalog with rfl | ⟨hdirect, hchains, rfl⟩
  · exact informs_merge hnodup hclauses (Hydration.addsAssumptions_run hhydrate)
  · -- No relation is followed, so the warnings are the same whatever collections there are.
    refine informs_merge hnodup (fun w => (hclauses w).trans ?_) ?_
    · refine exists_congr fun c => and_congr_right fun hc => ?_
      rw [hdirect c hc]
      simp
    · rw [hchains] at hhydrate ⊢
      cases hhydrate
      exact .refl _

/-- A question about the posts of nobody, whose reviewer and owner refer to no collection, with a
    chain that is one relation too long. -/
def reviewQuery : Query where
  collection := "posts"
  filter := Filter.ofClauses
    [⟨⟨["reviewer"], "role"⟩, .eq, .text "admin", none⟩,
      ⟨⟨["owner"], ""⟩, .isNull, .bool false, some "g"⟩]
  chains := [⟨["author", "post", "author"]⟩, ⟨["author"]⟩]

/-- There is a warning of the reviewer, who is looked up, and of the long chain, but none of the
    owner. -/
theorem informs_of_run_reviewQuery : ∃ answer,
    (run {} reviewQuery).outcome (.ofStore Store.sample) = .ok answer ∧ answer.documents = [] ∧
      answer.warnings = [.assumedTarget "reviewer_id" "reviewers" "users",
        .chainTooLong "author.post.author" 2] ∧
      reviewQuery.Informs {} Store.sample.names answer.warnings := by
  have hread : ((run {} reviewQuery).outcome (.ofStore Store.sample)).toOption.map
      (fun answer => (answer.documents, answer.warnings)) =
        some ([], [.assumedTarget "reviewer_id" "reviewers" "users",
          .chainTooLong "author.post.author" 2]) := by
    decide +kernel
  cases hrun : (run {} reviewQuery).outcome (.ofStore Store.sample) with
  | error failure =>
    rw [hrun] at hread
    cases hread
  | ok answer =>
    rw [hrun] at hread
    obtain ⟨hdocuments, hwarnings⟩ := Prod.mk.inj (Option.some.inj hread)
    exact ⟨answer, rfl, hdocuments, hwarnings, informs_of_run hrun⟩

end Engine

end DocQuery
