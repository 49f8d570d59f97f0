import DocQuery.Proofs.Engine.Pages
import DocQuery.Proofs.Predicate.Operators
import Mathlib.Data.List.Nodup

namespace DocQuery

namespace Clause

/-- The clause that the id of a document is one of some ids. -/
def idIn (ids : List String) : Clause :=
  ⟨.direct Document.idField, .isIn, .list (ids.map .text), none⟩

private theorem ofJsonItems_map_str (texts : List String) :
    Literal.ofJsonItems (texts.map .str) = texts.map .text := by
  induction texts with
  | nil => rfl
  | cons text rest ih =>
    rw [List.map_cons, List.map_cons, ← ih, Literal.ofJsonItems, Literal.ofJson]

private theorem parse_idIn (ids : List String) :
    parse "id_in" (.json (.arr (ids.map .str))) = .ok (idIn ids) := by
  have hmarker : splitMarker "id_in" = .ok (none, "id_in") := by decide
  have hoperator : splitOperator "id_in" = ("id", .isIn) := by decide
  have hpath : FieldPath.parse "id" = .ok (.direct Document.idField) := by decide
  have hvalue : parseValue "id_in" .isIn (.json (.arr (ids.map .str))) =
      .ok (.list (ids.map .text)) := by
    rw [← ofJsonItems_map_str]
    rfl
  unfold parse
  refine bind_eq_ok_iff.mpr ⟨_, hmarker, ?_⟩
  simp only [hoperator]
  exact bind_eq_ok_iff.mpr ⟨_, hpath, bind_eq_ok_iff.mpr ⟨_, hvalue, rfl⟩⟩

/-- An id is compared as text, whatever it looks like. -/
theorem holds_idIn_iff {s : Store} {catalog : Catalog} {ids : List String} {d : Document} :
    (idIn ids).holds s catalog d = true ↔ d.id ∈ ids := by
  have hitem : ∀ id : String, Operator.eq.holds (d.field? Document.idField) (.text id) = true ↔
      id = d.id := by
    intro id
    change ((Literal.text id).equals (.str d.id) || false) = true ↔ id = d.id
    rw [Literal.equals_text_str, Bool.or_false, beq_iff_eq]
  change Operator.isIn.holds (d.field? Document.idField) (.list (ids.map .text)) = true ↔
    d.id ∈ ids
  rw [Operator.holds_isIn_eq_any, Literal.items, List.any_map, List.any_eq_true]
  simp only [Function.comp_apply, hitem, exists_eq_right]

end Clause

namespace Store

/-- What is fetched comes in the order of the ids, and those that are not taken are left out. -/
theorem Filed.map_id_fetch {s : Store} (hs : s.Filed) (collection : String) (ids : List String) :
    (s.fetch collection ids).map Document.id =
      ids.filter fun id => (s.find? collection id).isSome := by
  unfold fetch
  induction ids with
  | nil => rfl
  | cons id rest ih =>
    cases hfind : s.find? collection id with
    | none => simp only [List.filterMap_cons, hfind, ih, List.filter_cons,
      Option.isSome_none, Bool.false_eq_true,
        if_false]
    | some d => simp only [List.filterMap_cons, hfind, List.map_cons, ih,
      hs.id_of_find? hfind, List.filter_cons,
        Option.isSome_some, if_true]

/-- A predicate on the id accepts the documents that a fetch of these ids finds. -/
theorem Filed.accepted_perm_fetch {s : Store} (hs : s.Filed) (collection : String)
    {ids : List String} (hids : ids.Nodup) {predicate : Option Predicate}
    (haccepts : ∀ d, (predicate.all fun p => p.accepts d) = true ↔ d.id ∈ ids) :
    (s.accepted collection predicate).Perm (s.fetch collection ids) := by
  have haccepted := List.Nodup.of_map Document.id (hs.nodup_accepted collection predicate)
  have hfetched : (s.fetch collection ids).Nodup := by
    refine List.Nodup.of_map Document.id ?_
    rw [hs.map_id_fetch]
    exact hids.filter _
  refine (List.perm_ext_iff_of_nodup haccepted hfetched).mpr fun d => ?_
  rw [accepted, List.mem_filter, haccepts, List.mem_map, fetch, List.mem_filterMap]
  constructor
  · rintro ⟨⟨⟨id, d⟩, hentry, rfl⟩, hid⟩
    obtain rfl : d.id = id := ((hs.documents collection).own _ hentry).1
    exact ⟨d.id, hid, hs.find?_eq_some_iff.mpr hentry⟩
  · rintro ⟨id, hid, hfind⟩
    exact ⟨⟨(id, d), hs.find?_eq_some_iff.mp hfind, rfl⟩, hs.id_of_find? hfind ▸ hid⟩

end Store

/-- The query for the documents of some ids, ascending by id. -/
def Query.byIds (collection : String) (ids : List String) (chains : List Chain) (limit : Option Nat)
    (countTotal : Bool) : Query where
  collection
  filter := Filter.ofClauses [Clause.idIn ids]
  chains
  limit
  countTotal

namespace Engine

/-- Without chains there is nothing to hydrate, and so no need for a catalog. -/
private theorem hydrate_tree_eq {catalog needed : Catalog} {chains : List Chain}
    (hcatalog : chains ≠ [] → catalog = needed) (maxDepth : Nat)
    (find? : Target → String → Option Document) :
    Hydration.hydrate catalog find? (Hydration.tree chains maxDepth).1 =
      Hydration.hydrate needed find? (Hydration.tree chains maxDepth).1 := by
  cases chains with
  | nil =>
    have hempty : (Hydration.tree [] maxDepth).1.isEmpty := rfl
    funext d
    rw [Hydration.hydrate_of_isEmpty hempty, Hydration.hydrate_of_isEmpty hempty]
  | cons chain rest => rw [hcatalog (List.cons_ne_nil _ _)]

/-- What is fetched by ids comes out as if every reference were looked up in the store. -/
theorem outcome_get {s : Store} (hs : s.Filed) (config : Config) (collection : String)
    (ids : List String) (chains : List Chain) :
    (get config collection ids chains).outcome (.ofStore s) = .ok ((s.fetch collection ids).map
      (Hydration.hydrate ⟨config.users, s.names⟩ (fun t id => s.find? t.name id)
        (Hydration.tree chains config.maxHydrationDepth).1)) := by
  unfold get
  rw [Reading.outcome_bind_of_ok (Reading.outcome_fetch s collection ids)]
  cases chains with
  | nil =>
    have hempty : (Hydration.tree [] config.maxHydrationDepth).1.isEmpty := rfl
    rw [if_pos List.isEmpty_nil, Reading.outcome_pure, Hydration.map_hydrate_of_isEmpty hempty]
  | cons chain rest =>
    obtain ⟨warnings, hrun⟩ := Hydration.outcome_run hs config ⟨config.users, s.names⟩
      (chain :: rest) (s.fetch collection ids)
    have hread : (catalog config).outcome (.ofStore s) = .ok ⟨config.users, s.names⟩ := rfl
    rw [if_neg (by simp), Reading.outcome_bind_of_ok hread, Reading.outcome_bind_of_ok hrun,
      Reading.outcome_pure]

/-- The first page is all of the result, if it has room for it. -/
theorem take_scan_of_room {s : Store} {config : Config} {q : Query} {predicate : Option Predicate}
    (hoffset : q.offset = 0) (hroom : (q.result s predicate).length ≤ config.clampLimit q.limit)
    (hcount : (q.result s predicate).length ≤ Config.maxCount) :
    (s.scan q.collection (q.scan config predicate)).documents.take (config.clampLimit q.limit) =
      q.result s predicate := by
  rw [scan_documents, hoffset, List.drop_zero, List.take_take, List.take_of_length_le]
  omega

private theorem outcome_catalogFor_byIds (s : Store) (config : Config) (collection : String)
    (ids : List String) (chains : List Chain) (limit : Option Nat) (countTotal : Bool) :
    ∃ catalog, (catalogFor config (Query.byIds collection ids chains limit countTotal)).outcome
      (.ofStore s) = .ok catalog ∧ (chains ≠ [] → catalog = ⟨config.users, s.names⟩) := by
  cases chains with
  | nil => exact ⟨_, rfl, fun hne => absurd rfl hne⟩
  | cons chain rest => exact ⟨_, rfl, fun _ => rfl⟩

/-- On a store in memory, fetching documents by distinct ids and asking for them by a filter on the
    id come to the same documents, hydrated alike, if the page has room for them: fetched in the
    order of the ids, and ascending by id as the answer of the query. Each is the document that the
    store holds, with every reference looked up in the store. The filter is what the ids read as
    under the key for it. -/
theorem get_perm_byIds {s : Store} (hreached : s.Reachable) (config : Config) (collection : String)
    {ids : List String} (hids : ids.Nodup) (chains : List Chain) {limit : Option Nat}
    (hroom : ids.length ≤ config.clampLimit limit) (hcount : ids.length ≤ Config.maxCount)
    (countTotal : Bool) :
    Clause.parse "id_in" (.json (.arr (ids.map .str))) = .ok (Clause.idIn ids) ∧
    ∃ fetched answer, (get config collection ids chains).outcome (.ofStore s) = .ok fetched ∧
      (run config (Query.byIds collection ids chains limit countTotal)).outcome
        (.ofStore s) = .ok answer ∧
      answer.documents.Perm fetched ∧
      fetched = (s.fetch collection ids).map (Hydration.hydrate ⟨config.users, s.names⟩
        (fun t id => s.find? t.name id) (Hydration.tree chains config.maxHydrationDepth).1) ∧
      fetched.map Document.id = ids.filter (fun id => (s.find? collection id).isSome) ∧
      (answer.documents.map Document.id).Pairwise (· < ·) := by
  have hs := hreached.filed
  obtain ⟨catalog, hcatalog, hchains⟩ :=
    outcome_catalogFor_byIds s config collection ids chains limit countTotal
  have hresolvable : (Filter.ofClauses [Clause.idIn ids]).Resolvable config :=
    Filter.resolvable_singleton rfl (Nat.zero_le _)
  obtain ⟨predicate, warnings, hresolve, hmeets⟩ :=
    Filter.outcome_resolve s config catalog hresolvable
  obtain ⟨answer, hrun, hdocuments, -⟩ := outcome_run_of_resolve hs config _ hcatalog hresolve
  have hresult :=
    Query.isResult_result hs (Query.byIds collection ids chains limit countTotal) predicate
  have hperm := hresult.perm.trans (hs.accepted_perm_fetch collection hids fun d => by
    rw [hmeets, Filter.meets_ofClauses_singleton, Clause.holds_idIn_iff])
  have hlength := Nat.le_trans (Nat.le_of_eq hperm.length_eq) (List.length_filterMap_le _ ids)
  rw [take_scan_of_room rfl (Nat.le_trans hlength hroom)
    (Nat.le_trans hlength hcount)] at hdocuments
  refine ⟨Clause.parse_idIn ids, _, answer, outcome_get hs config collection ids chains, hrun,
    ?_, rfl, ?_, ?_⟩
  · rw [hdocuments, ← hydrate_tree_eq hchains]
    exact hperm.map _
  · rw [List.map_map, ← hs.map_id_fetch]
    exact List.map_congr_left fun d _ => Hydration.hydrate_id _ _ _ d
  · rw [hdocuments, map_id_keep_hydrate]
    exact List.pairwise_map.mpr hresult.ordered

/-- Two posts, asked for against the order of their ids and with one that does not exist between
    them. -/
theorem get_perm_byIds_sample_posts :
    ∃ fetched answer, (get {} "posts" ["p2", "true", "p1"] [⟨["author"]⟩]).outcome
      (.ofStore Store.sample) = .ok fetched ∧
      (run {} (Query.byIds "posts" ["p2", "true", "p1"] [⟨["author"]⟩] (some 3) true)).outcome
        (.ofStore Store.sample) = .ok answer ∧
      answer.documents.Perm fetched ∧ fetched.map Document.id = ["p2", "p1"] := by
  have hids : ["p2", "true", "p1"].Nodup := by decide
  have hroom : ["p2", "true", "p1"].length ≤ Config.clampLimit {} (some 3) := by decide
  obtain ⟨-, fetched, answer, hget, hrun, hperm, -, hfound, -⟩ :=
    get_perm_byIds Store.reachable_sample {} "posts" hids [⟨["author"]⟩] hroom (by decide) true
  exact ⟨fetched, answer, hget, hrun, hperm, hfound.trans (by decide +kernel)⟩

end Engine

end DocQuery
