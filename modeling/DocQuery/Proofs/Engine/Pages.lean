import Mathlib.Algebra.Group.Nat.Defs
import DocQuery.Proofs.Filter.Resolution
import DocQuery.Proofs.Hydration.Direct
import DocQuery.Proofs.Query.Result

namespace DocQuery

/-- Whether 64 bits count the documents of every collection, as they do in any memory. -/
def Store.Countable (s : Store) : Prop := ∀ name, (s.documents name).length ≤ Config.maxCount

private theorem Store.countable_of_collections {s : Store}
    (hcount : ∀ entry ∈ s.collections, entry.2.length ≤ Config.maxCount) : s.Countable := by
  intro name
  unfold Store.documents
  cases hget : Entries.get? name s.collections with
  | none => exact Nat.zero_le _
  | some held => exact hcount _ (Entries.mem_of_get? hget)

/-- Whether an answer is the part of a result that a query asks for. -/
structure Query.IsPage (q : Query) (config : Config) (all : List Document) (answer : Answer) :
    Prop where
  documents : answer.documents.map Document.id =
    ((all.drop q.offset).take (config.clampLimit q.limit)).map Document.id
  total : answer.total = if q.countTotal then some all.length else none
  hasMore : answer.hasMore = true ↔ q.offset + config.clampLimit q.limit < all.length

namespace Hydration

/-- Hydration writes into the data alone. -/
@[simp] theorem hydrate_id (catalog : Catalog) (find? : Target → String → Option Document)
    (tree : NameTree) (d : Document) : (hydrate catalog find? tree d).id = d.id := by
  cases tree
  rfl

end Hydration

namespace Params

/-- The query that parameters ask for, on a page that starts at an offset. -/
def queryAt (p : Params) (collection : String) (offset : Nat) : Query where
  collection
  filter := Filter.ofClauses p.clauses
  chains := p.chains
  select := p.select
  sort := p.sort
  direction := p.direction.getD .ascending
  limit := p.limit
  offset
  countTotal := p.count.getD true

/-- A page is asked for by the offset it starts at, unless 64 bits do not hold that. -/
theorem toQuery_page (p : Params) (collection : String) (config : Config) (before : Nat) :
    { p with page := some (before + 1) }.toQuery collection config =
      if Config.maxCount < before * config.clampLimit p.limit
        then .error (.pageOutOfRange (before + 1))
      else .ok (p.queryAt collection (before * config.clampLimit p.limit)) := by
  simp only [toQuery, startOffset, Nat.add_sub_cancel]
  split <;> rfl

private theorem toQuery_of_no_page {p : Params} (hpage : ∀ before, p.page ≠ some (before + 1))
    (collection : String) (config : Config) : ∃ q, p.toQuery collection config = .ok q := by
  unfold toQuery startOffset
  match h : p.page with
  | none => exact ⟨_, rfl⟩
  | some 0 =>
    simp only [Nat.zero_sub, Nat.zero_mul]
    exact ⟨_, rfl⟩
  | some (before + 1) => exact absurd h (hpage before)

/-- Parameters ask for no query exactly when they ask for a page that starts past 64 bits. -/
theorem toQuery_eq_error_iff {p : Params} {collection : String} {config : Config}
    {e : RequestError} :
    p.toQuery collection config = .error e ↔ ∃ before, p.page = some (before + 1) ∧
      e = .pageOutOfRange (before + 1) ∧ 2 ^ 64 ≤ before * config.clampLimit p.limit := by
  have hmax : Config.maxCount + 1 = 2 ^ 64 := rfl
  have hquery : ∀ before, p.page = some (before + 1) → p.toQuery collection config =
      if Config.maxCount < before * config.clampLimit p.limit
        then .error (.pageOutOfRange (before + 1))
      else .ok (p.queryAt collection (before * config.clampLimit p.limit)) := by
    intro before hpage
    rw [← toQuery_page, ← hpage]
  constructor
  · intro herror
    by_cases hnone : ∀ before, p.page ≠ some (before + 1)
    · obtain ⟨q, hq⟩ := toQuery_of_no_page hnone collection config
      rw [hq] at herror
      cases herror
    · obtain ⟨before, hpage⟩ : ∃ before, p.page = some (before + 1) := by simpa using hnone
      rw [hquery before hpage] at herror
      split at herror
      · cases herror
        exact ⟨before, hpage, rfl, by omega⟩
      · cases herror
  · rintro ⟨before, hpage, rfl, hlarge⟩
    rw [hquery before hpage, if_pos (by omega)]

end Params

namespace Engine

open Query

/-- A store in memory always gives a catalog. -/
theorem outcome_catalogFor (s : Store) (config : Config) (q : Query) :
    ∃ catalog, (catalogFor config q).outcome (.ofStore s) = .ok catalog := by
  unfold catalogFor
  split
  · exact ⟨⟨config.users, s.names⟩, rfl⟩
  · exact ⟨⟨config.users, []⟩, rfl⟩

/-- The filter of a query resolved as the engine resolves it. -/
def resolveFilter (config : Config) (q : Query) : Reading (Option Predicate × List Warning) := do
  q.filter.resolve config (← catalogFor config q)

/-- Resolving a filter that passes the checks comes to something on a store in memory. -/
theorem outcome_resolveFilter (s : Store) (config : Config) {q : Query}
    (hf : q.filter.Resolvable config) :
    ∃ predicate warnings, (resolveFilter config q).outcome (.ofStore s) =
      .ok (predicate, warnings) := by
  obtain ⟨catalog, hcatalog⟩ := outcome_catalogFor s config q
  obtain ⟨predicate, warnings, hresolve, -⟩ := Filter.outcome_resolve s config catalog hf
  exact ⟨predicate, warnings,
    by rw [resolveFilter, Reading.outcome_bind_of_ok hcatalog, hresolve]⟩

/-- Asking for one document past the page, within 64 bits, tells of every collection that 64 bits
    count whether there are more, and gives the page. -/
theorem take_scan_limit {α : Type} {all : List α} (hcount : all.length ≤ Config.maxCount)
    (offset limit : Nat) :
    ((all.drop offset).take (min (limit + 1) Config.maxCount)).take limit =
      (all.drop offset).take limit ∧
      (limit < ((all.drop offset).take (min (limit + 1) Config.maxCount)).length ↔
        offset + limit < all.length) := by
  have hmax : Config.maxCount = 2 ^ 64 - 1 := rfl
  constructor
  · rw [List.take_take, List.take_eq_take_iff, List.length_drop]
    omega
  · rw [List.length_take, List.length_drop]
    omega

/-- A scan finds the page in the result, and one document past it. -/
theorem scan_documents (s : Store) (config : Config) (q : Query) (predicate : Option Predicate) :
    (s.scan q.collection (q.scan config predicate)).documents =
      ((q.result s predicate).drop q.offset).take
        (min (config.clampLimit q.limit + 1) Config.maxCount) := by
  rw [← matching_eq_result q s config]
  rfl

/-- Documents with the fields that a query keeps, and the relations of its chains. -/
def keep (config : Config) (q : Query) (documents : List Document) : List Document :=
  match q.select with
  | some fields => documents.map (Selection.project fields (hydratedNames config q.chains))
  | none => documents

/-- The answer of a query to a page of documents, with what was found beside it. -/
def answerOf (config : Config) (q : Query) (found : Found) (documents : List Document)
    (warnings : List Warning) :
    Answer where
  documents := keep config q documents
  total := found.total
  limit := config.clampLimit q.limit
  offset := q.offset
  hasMore := config.clampLimit q.limit < found.documents.length
  warnings := warnings

/-- A query that was answered had its filter resolved, and then its page read and hydrated. -/
theorem exists_steps_of_run {s : Store} {config : Config} {q : Query} {answer : Answer}
    (hrun : (run config q).outcome (.ofStore s) = .ok answer) :
    ∃ catalog predicate warnings hydrated more,
      (catalogFor config q).outcome (.ofStore s) = .ok catalog ∧
      (q.filter.resolve config catalog).outcome (.ofStore s) = .ok (predicate, warnings) ∧
      (Hydration.run config catalog q.chains
        ((s.scan q.collection (q.scan config predicate)).documents.take
        (config.clampLimit q.limit))).outcome (.ofStore s) = .ok (hydrated, more) ∧
      answer = answerOf config q (s.scan q.collection (q.scan config predicate)) hydrated
        (Warning.merge warnings more) := by
  unfold run at hrun
  obtain ⟨catalog, hcatalog, hrun⟩ := Reading.outcome_bind_eq_ok_iff.mp hrun
  obtain ⟨⟨predicate, warnings⟩, hresolve, hrun⟩ := Reading.outcome_bind_eq_ok_iff.mp hrun
  rw [Reading.outcome_bind_of_ok
    (Reading.outcome_scan s q.collection (q.scan config predicate))] at hrun
  obtain ⟨⟨hydrated, more⟩, hhydrate, hrun⟩ := Reading.outcome_bind_eq_ok_iff.mp hrun
  exact ⟨catalog, predicate, warnings, hydrated, more, hcatalog, hresolve, hhydrate,
    (Except.ok.inj hrun).symm⟩

/-- Hydrating documents and keeping some of their fields leaves their ids. -/
theorem map_id_keep_hydrate (config : Config) (q : Query) (catalog : Catalog)
    (find? : Target → String → Option Document) (tree : NameTree) (documents : List Document) :
    (keep config q (documents.map (Hydration.hydrate catalog find? tree))).map Document.id =
      documents.map Document.id := by
  unfold keep
  cases q.select with
  | none =>
    rw [List.map_map]
    exact List.map_congr_left fun d _ => Hydration.hydrate_id catalog find? tree d
  | some fields =>
    rw [List.map_map, List.map_map]
    exact List.map_congr_left fun d _ => Hydration.hydrate_id catalog find? tree d

/-- Once its filter is resolved, a query is answered with the documents of its scan, each hydrated
    as if every reference were looked up in the store. -/
theorem outcome_run_of_resolve {s : Store} (hs : s.Filed) (config : Config) (q : Query)
    {catalog : Catalog} (hcatalog : (catalogFor config q).outcome (.ofStore s) = .ok catalog)
    {predicate : Option Predicate} {warnings : List Warning}
    (hresolve : (q.filter.resolve config catalog).outcome (.ofStore s) =
      .ok (predicate, warnings)) :
    ∃ answer, (run config q).outcome (.ofStore s) = .ok answer ∧
      answer.documents = keep config q
      (((s.scan q.collection (q.scan config predicate)).documents.take
        (config.clampLimit q.limit)).map (Hydration.hydrate catalog (fun t id => s.find? t.name id)
          (Hydration.tree q.chains config.maxHydrationDepth).1)) ∧
      answer.total = (s.scan q.collection (q.scan config predicate)).total ∧
      (answer.hasMore = true ↔
        config.clampLimit q.limit <
        (s.scan q.collection (q.scan config predicate)).documents.length) := by
  obtain ⟨more, hhydrate⟩ := Hydration.outcome_run hs config catalog q.chains
    ((s.scan q.collection (q.scan config predicate)).documents.take (config.clampLimit q.limit))
  unfold run
  rw [Reading.outcome_bind_of_ok hcatalog, Reading.outcome_bind_of_ok hresolve,
    Reading.outcome_bind_of_ok (Reading.outcome_scan s q.collection (q.scan config predicate)),
    Reading.outcome_bind_of_ok hhydrate, Reading.outcome_pure]
  exact ⟨_, rfl, rfl, rfl, decide_eq_true_iff⟩

@[inherit_doc outcome_run_of_resolve]
theorem outcome_run_eq_ok {s : Store} (hs : s.Filed) (config : Config) (q : Query)
    {predicate : Option Predicate} {warnings : List Warning}
    (hresolve : (resolveFilter config q).outcome (.ofStore s) = .ok (predicate, warnings)) :
    ∃ answer, (run config q).outcome (.ofStore s) = .ok answer ∧
      answer.documents.map Document.id =
        ((s.scan q.collection (q.scan config predicate)).documents.take
          (config.clampLimit q.limit)).map Document.id ∧
      answer.total = (s.scan q.collection (q.scan config predicate)).total ∧
      (answer.hasMore = true ↔
        config.clampLimit q.limit <
          (s.scan q.collection (q.scan config predicate)).documents.length) := by
  obtain ⟨catalog, hcatalog⟩ := outcome_catalogFor s config q
  rw [resolveFilter, Reading.outcome_bind_of_ok hcatalog] at hresolve
  obtain ⟨answer, hrun, hdocuments, hrest⟩ :=
    outcome_run_of_resolve hs config q hcatalog hresolve
  exact ⟨answer, hrun, hdocuments ▸ map_id_keep_hydrate config q catalog _ _ _, hrest⟩

/-- Once its filter is resolved, a query gets its part of the result. -/
theorem outcome_run {s : Store} (hs : s.Filed) (config : Config) (q : Query)
    (hcount : (s.documents q.collection).length ≤ Config.maxCount) {predicate : Option Predicate}
    {warnings : List Warning}
    (hresolve : (resolveFilter config q).outcome (.ofStore s) = .ok (predicate, warnings)) :
    ∃ answer, (run config q).outcome (.ofStore s) = .ok answer ∧
      q.IsPage config (q.result s predicate) answer := by
  obtain ⟨answer, hrun, hdocuments, htotal, hhasMore⟩ := outcome_run_eq_ok hs config q hresolve
  have hlength := length_result_le hs q hcount predicate
  obtain ⟨hpage, hmore⟩ := take_scan_limit hlength q.offset (config.clampLimit q.limit)
  refine ⟨answer, hrun, ?_, ?_, ?_⟩
  · rw [hdocuments, scan_documents, hpage]
  · rw [htotal, ← q.matching_eq_result s config]
    rfl
  · rw [hhasMore, scan_documents, hmore]

/-- The answers to the requests for one page after the other, from the page after a number of pages
    up to the first page that has none after it. -/
inductive Pages (s : Store) (config : Config) (collection : String) (p : Params) :
    Nat → List Answer → Prop where
  | last {before : Nat} {q : Query} {answer : Answer}
      (hquery : { p with page := some (before + 1) }.toQuery collection config = .ok q)
      (hrun : (run config q).outcome (.ofStore s) = .ok answer) (hlast : answer.hasMore = false) :
      Pages s config collection p before [answer]
  | more {before : Nat} {q : Query} {answer : Answer} {rest : List Answer}
      (hquery : { p with page := some (before + 1) }.toQuery collection config = .ok q)
      (hrun : (run config q).outcome (.ofStore s) = .ok answer) (hmore : answer.hasMore = true)
      (hrest : Pages s config collection p (before + 1) rest) :
      Pages s config collection p before (answer :: rest)

/-- Pages that follow each other, from one that starts inside of the result, make up the rest of the
    result. The induction is on what is left of it, of which every page but the last takes some. -/
theorem exists_pages {s : Store} (hs : s.Filed) {config : Config} {collection : String} {p : Params}
    (hcount : (s.documents collection).length ≤ Config.maxCount)
    (hlimit : 1 ≤ config.clampLimit p.limit) {predicate : Option Predicate}
    {warnings : List Warning}
    (hresolve : (resolveFilter config (p.queryAt collection 0)).outcome (.ofStore s) =
      .ok (predicate, warnings))
    {all : List Document} (hall : (p.queryAt collection 0).result s predicate = all) (before : Nat)
    (hstart : before * config.clampLimit p.limit ≤ all.length) :
    ∃ answers, Pages s config collection p before answers ∧
      (answers.flatMap fun answer => answer.documents.map Document.id) =
        (all.drop (before * config.clampLimit p.limit)).map Document.id := by
  generalize hleft : all.length - before * config.clampLimit p.limit = left
  induction left using Nat.strongRecOn generalizing before with
  | ind left ih =>
    have hlength : all.length ≤ Config.maxCount :=
      hall ▸ length_result_le hs (p.queryAt collection 0) hcount predicate
    have hquery := p.toQuery_page collection config before
    rw [if_neg (by omega)] at hquery
    obtain ⟨answer, hrun, hpage⟩ := outcome_run hs config
      (p.queryAt collection (before * config.clampLimit p.limit)) hcount hresolve
    -- The offset is in neither the filter nor the order, so every page is cut from one list.
    have hresult : (p.queryAt collection (before * config.clampLimit p.limit)).result
        s predicate = all := hall
    rw [hresult] at hpage
    have hnext : (before + 1) * config.clampLimit p.limit =
        before * config.clampLimit p.limit + config.clampLimit p.limit := Nat.succ_mul _ _
    cases hmore : answer.hasMore with
    | false =>
      refine ⟨[answer], .last hquery hrun hmore, ?_⟩
      have hend : all.length ≤
          before * config.clampLimit p.limit + config.clampLimit p.limit := by
        have hnone := mt hpage.hasMore.mpr (by simp [hmore])
        exact Nat.le_of_not_lt hnone
      rw [List.flatMap_singleton, hpage.documents]
      refine congrArg (List.map Document.id) (List.take_of_length_le ?_)
      rw [List.length_drop]
      exact Nat.sub_le_iff_le_add'.mpr hend
    | true =>
      have hinside : before * config.clampLimit p.limit + config.clampLimit p.limit < all.length :=
        hpage.hasMore.mp hmore
      obtain ⟨rest, hrest, hdocuments⟩ :=
        ih (all.length - (before + 1) * config.clampLimit p.limit)
        (by omega) (before + 1) (by omega) rfl
      refine ⟨answer :: rest, .more hquery hrun hmore hrest, ?_⟩
      rw [List.flatMap_cons, hpage.documents, hdocuments, hnext,
        ← List.map_append, ← List.drop_drop]
      exact congrArg (List.map Document.id) (List.take_append_drop _ _)

/-- The answer to a query that passes the checks is its part of one list, the accepted documents in
    the order that is asked for, with the length of that list if it is to be counted and word of
    whether there is more. No other list has these documents in that order. Pages of at least one
    document, asked for in turn until there are no more, give the list with every document once. A
    page is refused exactly when its start does not fit in 64 bits. -/
theorem pages_partition_result {s : Store} (hreached : s.Reachable) (hcount : s.Countable)
    (config : Config) :
    (∀ q : Query, q.filter.Resolvable config → ∃ predicate warnings all answer,
      (resolveFilter config q).outcome (.ofStore s) = .ok (predicate, warnings) ∧
      q.IsResult s predicate all ∧ (∀ other, q.IsResult s predicate other → other = all) ∧
      (run config q).outcome (.ofStore s) = .ok answer ∧ q.IsPage config all answer) ∧
    (∀ (p : Params) (collection : String), (Filter.ofClauses p.clauses).Resolvable config →
      1 ≤ config.clampLimit p.limit → ∃ q predicate warnings all answers,
        { p with page := some 1 }.toQuery collection config = .ok q ∧
        (resolveFilter config q).outcome (.ofStore s) = .ok (predicate, warnings) ∧
        q.IsResult s predicate all ∧ (∀ other, q.IsResult s predicate other → other = all) ∧
        Pages s config collection p 0 answers ∧
        (answers.flatMap fun answer => answer.documents.map Document.id) = all.map Document.id ∧
        (all.map Document.id).Nodup) ∧
    ∀ (p : Params) (collection : String) (e : RequestError),
      p.toQuery collection config = .error e ↔
      ∃ before, p.page = some (before + 1) ∧ e = .pageOutOfRange (before + 1) ∧
        2 ^ 64 ≤ before * config.clampLimit p.limit := by
  have hs := hreached.filed
  refine ⟨fun q hf => ?_, fun p collection hf hlimit => ?_,
    fun p collection e => Params.toQuery_eq_error_iff⟩
  · obtain ⟨predicate, warnings, hresolve⟩ := outcome_resolveFilter s config hf
    obtain ⟨answer, hrun, hpage⟩ := outcome_run hs config q (hcount q.collection) hresolve
    have hresult := isResult_result hs q predicate
    exact ⟨predicate, warnings, _, answer, hresolve, hresult,
      fun _ hother => hother.unique hresult, hrun, hpage⟩
  · obtain ⟨predicate, warnings, hresolve⟩ :=
      outcome_resolveFilter s config (q := p.queryAt collection 0) hf
    obtain ⟨answers, hpages, hdocuments⟩ :=
      exists_pages hs (hcount collection) hlimit hresolve rfl 0
        (by rw [Nat.zero_mul]; exact Nat.zero_le _)
    have hquery := p.toQuery_page collection config 0
    rw [Nat.zero_mul, if_neg (Nat.not_lt_zero _)] at hquery
    rw [Nat.zero_mul, List.drop_zero] at hdocuments
    have hresult := isResult_result hs (p.queryAt collection 0) predicate
    exact ⟨_, predicate, warnings, _, answers, hquery, hresolve, hresult,
      fun _ hother => hother.unique hresult, hpages, hdocuments, nodup_result hs _ predicate⟩

/-- Three posts on pages of two. -/
theorem pages_partition_sample_posts :
    Store.sample.Reachable ∧ Store.sample.Countable ∧
    ∃ answers, Pages Store.sample {} "posts" { limit := some 2 } 0 answers ∧
      (answers.flatMap fun answer => answer.documents.map Document.id).Perm ["p1", "p2", "p3"] := by
  have hcount : Store.sample.Countable := Store.countable_of_collections (by decide +kernel)
  obtain ⟨-, hpages, -⟩ := pages_partition_result Store.reachable_sample hcount {}
  obtain ⟨q, predicate, warnings, all, answers, hquery, hresolve, hresult, -, hpages, hdocuments,
      -⟩ :=
    hpages { limit := some 2 } "posts" ⟨rfl, fun _ hc => by cases hc⟩ (by decide)
  cases hquery
  cases hresolve
  refine ⟨Store.reachable_sample, hcount, answers, hpages, ?_⟩
  rw [hdocuments]
  have hids : (Store.sample.accepted "posts" none).map Document.id =
      ["p1", "p2", "p3"] := by decide +kernel
  exact hids ▸ hresult.perm.map Document.id

end Engine

end DocQuery
