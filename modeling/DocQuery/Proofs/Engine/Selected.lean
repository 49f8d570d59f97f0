import DocQuery.Proofs.Engine.Pages
import DocQuery.Proofs.Hydration.Shown
import DocQuery.Proofs.Selection.Pruning

namespace DocQuery

/-- Whether a document still has what was written into it for the relations at the top of a tree,
    pruned at most, wherever it held a reference. -/
def Hydration.Survives (catalog : Catalog) (find? : Target → String → Option Document)
    (tree : NameTree) (d projected : Document) : Prop :=
  ∀ entry ∈ tree.children, (referenceOf? (catalog.candidates entry.1) d).isSome →
    ∃ value kept, Entries.get? (Catalog.relationName entry.1)
      (hydrate catalog find? tree d).data = some value ∧
      Entries.get? (Catalog.relationName entry.1) projected.data = some kept ∧
      Selection.PrunesTo value kept

namespace Engine

/-- Selecting fields does nothing but project the documents of the answer, whatever reads fail. -/
theorem outcome_run_select (b : Backend) (config : Config) (q : Query) (fields : List String) :
    (run config { q with select := some fields }).outcome b =
      ((run config { q with select := none }).outcome b).map fun whole =>
        { whole with
          documents := whole.documents.map
            (Selection.project fields (hydratedNames config q.chains)) } := by
  change _ = (fun whole : Answer => _) <$> _
  unfold run
  simp only [Reading.outcome_bind, map_bind]
  rfl

/-- What is hydrated is written under names that a projection keeps. -/
theorem survives_project (config : Config) (chains : List Chain) (catalog : Catalog)
    (find? : Target → String → Option Document) (fields : List String) (d : Document) :
    Hydration.Survives catalog find? (Hydration.tree chains config.maxHydrationDepth).1 d
      (Selection.project fields (hydratedNames config chains)
        (Hydration.hydrate catalog find?
          (Hydration.tree chains config.maxHydrationDepth).1 d)) := by
  intro entry hentry href
  have hname : Catalog.relationName entry.1 ∈ hydratedNames config chains :=
    List.mem_map.mpr ⟨entry, hentry, rfl⟩
  have hwritten : (Hydration.written? catalog find? d entry.1 entry.2).isSome := by
    rwa [Hydration.written?, Option.isSome_map]
  obtain ⟨showing, hshowing⟩ :=
    Option.isSome_iff_exists.mp (Hydration.isSome_showingEach? hentry rfl hwritten)
  have hvalue :=
    @Hydration.renders_hydrate catalog find? (Hydration.tree chains config.maxHydrationDepth).1 d
    (Catalog.relationName entry.1)
  rw [Hydration.showing?, hshowing] at hvalue
  obtain ⟨kept, hkept, hprunes⟩ := Selection.exists_kept_of_hydrated fields _ _ hname hvalue
  exact ⟨_, kept, hvalue, hkept, hprunes⟩

/-- On a store in memory, selecting fields prunes the documents of an answer and does nothing else
    to it. A document keeps its id, its collection and its instants, the members of its data that a
    selected field begins with or that are hydrated, and of their values all but members of objects
    that are no id. Selecting the same again changes nothing. Whatever is selected, every document
    of the page keeps what was hydrated for the relations that it refers by. -/
theorem run_select_prunes {s : Store} (hreached : s.Reachable) (config : Config)
    (fields : List String) :
    (∀ hydrated d,
      Selection.IsProjection fields hydrated d (Selection.project fields hydrated d) ∧
      Selection.project fields hydrated (Selection.project fields hydrated d) =
        Selection.project fields hydrated d) ∧
    ∀ q : Query,
      (run config { q with select := some fields }).outcome (.ofStore s) =
        ((run config { q with select := none }).outcome (.ofStore s)).map (fun whole =>
          { whole with
            documents := whole.documents.map
              (Selection.project fields (hydratedNames config q.chains)) }) ∧
      ∀ answer, (run config { q with select := some fields }).outcome
        (.ofStore s) = .ok answer →
        ∃ catalog predicate warnings, (catalogFor config q).outcome (.ofStore s) = .ok catalog ∧
          (q.filter.resolve config catalog).outcome (.ofStore s) = .ok (predicate, warnings) ∧
          List.Forall₂
            (Hydration.Survives catalog s.follow
              (Hydration.tree q.chains config.maxHydrationDepth).1)
                ((s.scan q.collection (q.scan config predicate)).documents.take
                  (config.clampLimit q.limit))
            answer.documents := by
  refine ⟨fun hydrated d => ⟨Selection.isProjection_project fields hydrated d,
    Selection.project_project fields hydrated d⟩,
    fun q => ⟨outcome_run_select _ config q fields, ?_⟩⟩
  intro answer hrun
  obtain ⟨catalog, predicate, warnings, _, _, hcatalog, hresolve, -, -⟩ :=
    exists_steps_of_run hrun
  obtain ⟨same, hsame, hdocuments, -⟩ :=
    outcome_run_of_resolve hreached.filed config { q with select := some fields }
    hcatalog hresolve
  cases hrun.symm.trans hsame
  refine ⟨catalog, predicate, warnings, hcatalog, hresolve, ?_⟩
  have hprojected : answer.documents =
      ((s.scan q.collection (q.scan config predicate)).documents.take
      (config.clampLimit q.limit)).map fun d =>
        Selection.project fields (hydratedNames config q.chains)
        (Hydration.hydrate catalog s.follow
          (Hydration.tree q.chains config.maxHydrationDepth).1 d) :=
    hdocuments.trans List.map_map
  rw [hprojected]
  exact List.forall₂_map_right_iff.mpr (List.forall₂_same.mpr fun d _ =>
    survives_project config q.chains catalog s.follow fields d)

/-- The first post with the role of its author. -/
def roleQuery : Query where
  collection := "posts"
  filter := Filter.ofClauses [⟨⟨[], "id"⟩, .eq, .text "p1", none⟩]
  chains := [⟨["author"]⟩]
  select := some ["author.role", "title"]

/-- The post keeps its author, with the role and the id. -/
theorem run_select_prunes_sample_post : Store.sample.Reachable ∧ ∃ answer,
    (run {} roleQuery).outcome (.ofStore Store.sample) = .ok answer ∧
      answer.documents.map Document.data =
        [[("author", .obj [("role", .str "admin"), ("id", .str "u1")])]] ∧
      List.Forall₂ (Hydration.Survives ⟨{}, Store.sample.names⟩ Store.sample.follow
        (Hydration.tree roleQuery.chains 2).1) [Store.samplePost] answer.documents := by
  have hcatalog : (catalogFor {} roleQuery).outcome (.ofStore Store.sample) =
      .ok ⟨{}, Store.sample.names⟩ := rfl
  have hresolve : (roleQuery.filter.resolve {} ⟨{}, Store.sample.names⟩).outcome
      (.ofStore Store.sample) = .ok (some (.test "id" .eq (.text "p1")), []) := rfl
  have hresult : roleQuery.result Store.sample (some (.test "id" .eq (.text "p1"))) =
      [Store.samplePost] := by
    have haccepted : Store.sample.accepted "posts" (some (.test "id" .eq (.text "p1"))) =
        [Store.samplePost] := by
      decide +kernel
    exact List.perm_singleton.mp (haccepted ▸ List.mergeSort_perm _ _)
  have hpage : (Store.sample.scan roleQuery.collection
      (roleQuery.scan {} (some (.test "id" .eq (.text "p1"))))).documents.take
        (({} : Config).clampLimit roleQuery.limit) = [Store.samplePost] := by
    rw [scan_documents, hresult]
    decide
  obtain ⟨answer, hrun, hdocuments, -⟩ :=
    outcome_run_of_resolve Store.reachable_sample.filed {} roleQuery hcatalog hresolve
  obtain ⟨catalog, predicate, warnings, hcatalog', hresolve', hsurvives⟩ :=
    ((run_select_prunes Store.reachable_sample {} ["author.role", "title"]).2 roleQuery).2
      answer hrun
  cases hcatalog.symm.trans hcatalog'
  cases hresolve.symm.trans hresolve'
  rw [hpage] at hdocuments hsurvives
  refine ⟨Store.reachable_sample, answer, hrun, ?_, hsurvives⟩
  rw [hdocuments]
  decide +kernel

end Engine

end DocQuery
