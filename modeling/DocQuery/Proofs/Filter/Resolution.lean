import DocQuery.Filter.Meaning
import DocQuery.Filter.Resolved
import DocQuery.Proofs.Engine.Outcome
import DocQuery.Proofs.Filter.Grouping
import DocQuery.Proofs.Predicate.Acceptance
import DocQuery.Proofs.Predicate.Operators
import DocQuery.Proofs.Store.Matching

namespace DocQuery

namespace Clause

/-- Whether ids are those of the documents of a collection that a predicate accepts, in whatever
    order: what is asked of some id is asked of some accepted document. -/
def ListsAccepted (s : Store) (p : Predicate) (collection : String) (ids : List String) : Prop :=
  ∀ asked : String → Bool, ids.any asked =
    (s.documents collection).any fun entry => p.accepts entry.2 && asked entry.2.id

/-- A look-up in a store in memory lists the documents that the predicate accepts. -/
theorem outcome_acceptedIds (s : Store) (collection : String) (p : Predicate) :
    ∃ ids, (acceptedIds collection p).outcome (.ofStore s) = .ok ids ∧
      ListsAccepted s p collection ids := by
  refine ⟨_, rfl, fun asked => ?_⟩
  have hfound := (s.matching_perm collection
    ⟨some p, [⟨Document.idField, .ascending⟩], none, 0, false⟩).map Document.id
  simp only [Store.scan, List.drop_zero]
  rw [hfound.any_eq]
  simp [Store.accepted, List.any_map, List.any_filter, Function.comp_def]

/-- The test for membership asks whether the document refers to an id that was found. -/
theorem accepts_membership (found : List (Target × List String)) (r : Reference) (d : Document) :
    (membership found r).accepts d = (idsFor found r.target).any (r.refersTo d) := by
  have hany : ((idsFor found r.target).map Literal.text).any
      (Operator.eq.holds (d.field? r.field)) =
      (idsFor found r.target).any (r.refersTo d) := List.any_map
  rw [← hany]
  unfold membership
  cases r.cardinality with
  | single => exact Operator.holds_isIn_eq_any _ _
  | many => exact Operator.holds_overlaps_eq_any _ _

/-- Look-ups with a property for each of several targets give ids with the property of any one of
    them. -/
theorem idsFor_of_forall₂ {P : Target → List String → Prop} {targets : List Target}
    {found : List (Target × List String)} {t : Target} (ht : t ∈ targets)
    (hfound : List.Forall₂ (fun t entry => entry.1 = t ∧ P t entry.2) targets found) :
    P t (idsFor found t) := by
  unfold idsFor
  induction hfound with
  | nil => cases ht
  | @cons first entry rest found hentry _ ih =>
    obtain ⟨target, ids⟩ := entry
    obtain ⟨rfl, hids⟩ := hentry
    by_cases heq : t = target
    · subst heq
      simpa [List.lookup_cons] using hids
    · have hrest : t ∈ rest := (List.mem_cons.mp ht).resolve_left heq
      have hne : (t == target) = false := by simpa using heq
      simpa only [List.lookup_cons, hne] using ih hrest

private theorem accepts_isNull (r : Reference) (isNull : Bool) (d : Document) :
    (Predicate.test r.field .isNull (.bool isNull)).accepts d = (r.isAbsentFrom d == isNull) := by
  rw [Predicate.accepts, Reference.isAbsentFrom]
  cases d.field? r.field with
  | none => cases isNull <;> rfl
  | some value => cases value <;> cases isNull <;> rfl

/-- With a literal that reads as a truth value, the test for a target says what its clause says. -/
theorem existence_eq_ok (candidates : List Reference) (relation : String) {value : Literal}
    (hvalue : value.asBool.isSome) :
    ∃ p, existence candidates relation value = .ok p ∧
      ∀ d, p.accepts d = existenceHolds candidates value d := by
  obtain ⟨isNull, hvalue⟩ := Option.isSome_iff_exists.mp hvalue
  unfold existence existenceHolds
  rw [hvalue]
  cases isNull with
  | true =>
    refine ⟨_, rfl, fun d => ?_⟩
    simp [List.all_map, Function.comp_def, accepts_isNull]
  | false =>
    refine ⟨_, rfl, fun d => ?_⟩
    simp [List.any_map, Function.comp_def, accepts_isNull]

/-- Looking up every target of a relation once is enough for all the fields that may hold it: their
    membership tests together hold of the documents that refer to an accepted one. -/
theorem outcome_lookUps (s : Store) (p : Predicate) (candidates : List Reference) :
    ∃ found, ((Sorted.ofList (candidates.map Reference.target)).mapM fun t => do
        return (t, ← acceptedIds (Target.name t) p)).outcome (.ofStore s) = .ok found ∧
      ∀ d, (Predicate.any (candidates.map (membership found))).accepts d =
        candidates.any fun r => (s.documents r.target.name).any fun entry =>
          p.accepts entry.2 && r.refersTo d entry.2.id := by
  have hlookUps : ∀ t ∈ Sorted.ofList (candidates.map Reference.target),
      ∃ entry, (do return (t, ← acceptedIds t.name p) : Reading (Target × List String)).outcome
          (.ofStore s) = .ok entry ∧ entry.1 = t ∧ ListsAccepted s p t.name entry.2 := by
    intro t _
    obtain ⟨ids, hids, hlists⟩ := outcome_acceptedIds s t.name p
    exact ⟨(t, ids), by rw [Reading.outcome_bind_of_ok hids, Reading.outcome_pure], rfl, hlists⟩
  obtain ⟨found, hfound, hentries⟩ := Reading.outcome_mapM hlookUps
  refine ⟨found, hfound, fun d => ?_⟩
  rw [Predicate.accepts_any, List.any_map, Bool.eq_iff_iff, List.any_eq_true, List.any_eq_true]
  refine exists_congr fun r => and_congr_right fun hr => ?_
  have htarget : r.target ∈ Sorted.ofList (candidates.map Reference.target) :=
    Sorted.mem_ofList.mpr (List.mem_map_of_mem hr)
  have hids : ListsAccepted s p r.target.name (idsFor found r.target) :=
    idsFor_of_forall₂ htarget hentries
  rw [Function.comp_apply, accepts_membership, hids]

/-- Every path resolves to a predicate that accepts the documents it holds of, if a literal that
    asks for existence reads as a truth value. The induction follows the relations from the last
    document back: what is left of the path is resolved first, and looked up in the targets of the
    relation. -/
theorem outcome_resolvePath (s : Store) (catalog : Catalog) (target : String) (op : Operator)
    (value : Literal) (relations : List String)
    (hvalue : relations ≠ [] → target = "" → value.asBool.isSome) :
    ∃ r, (resolvePath catalog target op value relations).outcome (.ofStore s) = .ok r ∧
      ∀ d, r.predicate.accepts d = pathHolds s catalog target op value relations d := by
  induction relations with
  | nil => exact ⟨_, rfl, fun _ => rfl⟩
  | cons relation rest ih =>
    unfold resolvePath
    by_cases hexists : rest = [] ∧ target = ""
    · obtain ⟨p, hp, haccepts⟩ := existence_eq_ok (catalog.candidates relation) relation
        (hvalue (List.cons_ne_nil _ _) hexists.2)
      have hlift : (liftM (existence (catalog.candidates relation) relation value) :
          Reading Predicate).outcome (.ofStore s) = .ok p := hp
      refine ⟨⟨p, []⟩, ?_, fun d => ?_⟩
      · simp only [if_pos hexists]
        rw [Reading.outcome_bind_of_ok hlift, Reading.outcome_pure]
      · rw [pathHolds, if_pos hexists, haccepts]
    · obtain ⟨inner, hinner, hmeaning⟩ :=
        ih fun _ htarget => hvalue (List.cons_ne_nil _ _) htarget
      obtain ⟨found, hfound, haccepts⟩ :=
        outcome_lookUps s inner.predicate (catalog.candidates relation)
      refine ⟨⟨.any ((catalog.candidates relation).map (membership found)),
        Warning.merge (Reference.warnings (catalog.candidates relation)) inner.warnings⟩,
        ?_, fun d => ?_⟩
      · simp only [if_neg hexists]
        rw [Reading.outcome_bind_of_ok hinner, Reading.outcome_bind_of_ok hfound,
          Reading.outcome_pure]
      · simp only [pathHolds, if_neg hexists, haccepts, hmeaning]

/-- Whether a predicate stands for a clause: it accepts the documents that the clause holds of. -/
def StandsFor (s : Store) (catalog : Catalog) (c : Clause) (r : Resolved) : Prop :=
  ∀ d, r.predicate.accepts d = c.holds s catalog d

/-- A clause is resolved to a predicate that stands for it, unless it leaves open whether a target
    is to exist. -/
theorem outcome_resolve (s : Store) (catalog : Catalog) {c : Clause}
    (hvalue : c.path.isExistence → c.value.asBool.isSome) :
    ∃ r, (c.resolve catalog).outcome (.ofStore s) = .ok r ∧ StandsFor s catalog c r := by
  refine outcome_resolvePath s catalog c.path.target c.op c.value c.path.relations ?_
  intro hrelations htarget
  exact hvalue (by simp [FieldPath.isExistence, hrelations, htarget])

private theorem map_accepts_of_forall₂ {s : Store} {catalog : Catalog} {clauses : List Clause}
    {resolved : List Resolved} (hresolved : List.Forall₂ (StandsFor s catalog) clauses resolved)
    (d : Document) :
    resolved.map (fun r => r.predicate.accepts d) = clauses.map fun c => c.holds s catalog d := by
  induction hresolved with
  | nil => rfl
  | cons hr _ ih => rw [List.map_cons, List.map_cons, hr, ih]

end Clause

namespace Filter

/-- What it takes for a filter to resolve: every clause passes the checks, and the literal of every
    clause that asks for existence reads as a truth value. -/
structure Resolvable (config : Config) (f : Filter) : Prop where
  checked : f.check config = .ok ()
  readable : ∀ c ∈ f.clauses, c.path.isExistence → c.value.asBool.isSome

private theorem meets_of_isEmpty (s : Store) (catalog : Catalog) {f : Filter} (hempty : f.isEmpty)
    (d : Document) : f.meets s catalog d = true := by
  have hclauses : f.required = [] ∧ ∀ g ∈ f.groups, g.2 = [] := by
    simpa [isEmpty, clauses, List.isEmpty_iff] using hempty
  simp only [meets, holds, hclauses.1, List.all_nil, Bool.true_and, List.all_eq_true]
  intro g hg
  simp [hclauses.2 g hg]

private theorem map_any_accepts {s : Store} {catalog : Catalog}
    {groups : List (String × List Clause)} {resolved : List (List Resolved)}
    (hgroups : List.Forall₂
      (fun g members => List.Forall₂ (Clause.StandsFor s catalog) g.2 members)
      groups resolved) (d : Document) :
    (resolved.map fun members => members.any fun r => r.predicate.accepts d) =
      groups.map fun g => g.2.any fun c => c.holds s catalog d := by
  induction hgroups with
  | nil => rfl
  | @cons g members _ _ hg _ ih =>
    have hany := congrArg (List.any · id) (Clause.map_accepts_of_forall₂ hg d)
    simp only [List.any_map, Function.id_comp] at hany
    rw [List.map_cons, List.map_cons, hany, ih]

/-- Resolved clauses put together as a filter has them accept the documents that meet it. -/
theorem accepts_all_eq_meets {s : Store} {catalog : Catalog} {f : Filter} {required : List Resolved}
    {groups : List (List Resolved)}
    (hrequired : List.Forall₂ (Clause.StandsFor s catalog) f.required required)
    (hgroups : List.Forall₂
      (fun g members => List.Forall₂ (Clause.StandsFor s catalog) g.2 members)
      (f.groups.filter fun g => !g.2.isEmpty) groups) (d : Document) :
    (Predicate.all (required.map Resolved.predicate ++
      groups.map fun members => .any (members.map Resolved.predicate))).accepts d =
        f.meets s catalog d := by
  have hall := congrArg (List.all · id) (Clause.map_accepts_of_forall₂ hrequired d)
  have hany := congrArg (List.all · id) (map_any_accepts hgroups d)
  simp only [List.all_map, Function.id_comp] at hall hany
  simp only [Predicate.accepts_all, List.all_append, List.all_map, Function.comp_def,
    Predicate.accepts_any, List.any_map, meets, holds, hall]
  rw [hany, List.all_filter]
  refine congrArg _ (List.all_congr rfl fun g => ?_)
  cases g.2.isEmpty <;> rfl

theorem meets_ofClauses_singleton (s : Store) (catalog : Catalog) (c : Clause) (d : Document) :
    (ofClauses [c]).meets s catalog d = c.holds s catalog d := by
  rw [Bool.eq_iff_iff, meets, holds_ofClauses_iff]
  constructor
  · rintro ⟨hrequired, hgroups⟩
    cases hgroup : c.group with
    | none => exact hrequired c (List.mem_singleton_self c) hgroup
    | some name =>
      obtain ⟨c', hc', -, hholds⟩ := hgroups name ⟨c, List.mem_singleton_self c, hgroup⟩
      rwa [List.mem_singleton.mp hc'] at hholds
  · intro hholds
    constructor
    · intro c' hc' _
      rwa [List.mem_singleton.mp hc']
    · rintro name ⟨c', hc', hgroup⟩
      refine ⟨c', hc', hgroup, ?_⟩
      rwa [List.mem_singleton.mp hc']

/-- A clause that asks for no existence resolves where its look-ups are allowed. -/
theorem resolvable_singleton {config : Config} {c : Clause} (hexists : c.path.isExistence = false)
    (hhops : c.path.hops ≤ config.maxFilterDepth) : (ofClauses [c]).Resolvable config := by
  refine ⟨check_eq_ok_iff.mpr fun c' hc' => ?_, fun c' hc' hexists' => ?_⟩
  · rw [mem_clauses_ofClauses, List.mem_singleton] at hc'
    rw [hc', Clause.check, if_neg (by simp [hexists]), if_neg (Nat.not_lt_of_le hhops)]
  · rw [mem_clauses_ofClauses, List.mem_singleton] at hc'
    rw [hc', hexists] at hexists'
    cases hexists'

/-- A filter that passes the checks is resolved to a predicate that accepts the documents which meet
    it. -/
theorem outcome_resolve (s : Store) (config : Config) (catalog : Catalog) {f : Filter}
    (hf : f.Resolvable config) :
    ∃ predicate warnings,
      (f.resolve config catalog).outcome (.ofStore s) = .ok (predicate, warnings) ∧
      ∀ d, (predicate.all fun p => p.accepts d) = f.meets s catalog d := by
  have hcheck : (liftM (f.check config) : Reading Unit).outcome (.ofStore s) = .ok () := hf.checked
  unfold resolve
  rw [Reading.outcome_bind_of_ok hcheck]
  by_cases hempty : f.isEmpty
  · refine ⟨none, [], by rw [if_pos hempty, Reading.outcome_pure], fun d => ?_⟩
    rw [meets_of_isEmpty s catalog hempty, Option.all_none]
  · obtain ⟨required, hrequired, hmeans⟩ := Reading.outcome_mapM (b := .ofStore s)
      fun c hc => Clause.outcome_resolve s catalog (hf.readable c (List.mem_append_left _ hc))
    have hgroup : ∀ g ∈ f.groups.filter (fun g => !g.2.isEmpty), ∃ members,
        (g.2.mapM (Clause.resolve catalog)).outcome (.ofStore s) = .ok members ∧
          List.Forall₂ (Clause.StandsFor s catalog) g.2 members := by
      intro g hg
      refine Reading.outcome_mapM fun c hc => Clause.outcome_resolve s catalog (hf.readable c ?_)
      exact List.mem_append_right _ (List.mem_flatMap.mpr ⟨g, List.mem_of_mem_filter hg, hc⟩)
    obtain ⟨groups, hgroups, hmembers⟩ := Reading.outcome_mapM hgroup
    rw [if_neg hempty, Reading.outcome_bind_of_ok hrequired, Reading.outcome_bind_of_ok hgroups,
      Reading.outcome_pure]
    refine ⟨_, _, rfl, fun d => ?_⟩
    rw [Option.all_some, Predicate.accepts_simplify_eq, accepts_all_eq_meets hmeans hmembers]

/-- Groups without members leave alone which clauses there are, and when they hold. -/
theorem withGroups_eq (names : List String) (f : Filter) :
    (names.foldl (fun f name => f.withGroup name) f).clauses = f.clauses ∧
      ∀ clauseHolds, (names.foldl (fun f name => f.withGroup name) f).holds clauseHolds =
        f.holds clauseHolds := by
  induction names generalizing f with
  | nil => exact ⟨rfl, fun _ => rfl⟩
  | cons name rest ih =>
    obtain ⟨hclauses, hholds⟩ := ih (f.withGroup name)
    refine ⟨hclauses.trans (clauses_withGroup name f), fun clauseHolds => ?_⟩
    rw [List.foldl_cons, hholds, holds_withGroup]

/-- Clauses that were read from keys, sorted out by group beside any groups without members, resolve
    on every store once they pass the checks. The predicate accepts a document exactly when every
    clause without a group holds of it, and some clause of every group that has any. -/
theorem accepts_resolve_ofClauses_iff (s : Store) (config : Config) (catalog : Catalog)
    (clauses : List Clause) (emptyGroups : List String)
    (hparsed : ∀ c ∈ clauses, ∃ key raw, Clause.parse key raw = .ok c)
    (hchecked : (emptyGroups.foldl (fun f name => f.withGroup name) (ofClauses clauses)).check
      config = .ok ()) :
    ∃ predicate warnings,
      ((emptyGroups.foldl (fun f name => f.withGroup name) (ofClauses clauses)).resolve config
        catalog).outcome (.ofStore s) = .ok (predicate, warnings) ∧
      ∀ d : Document, (predicate.all fun p => p.accepts d) = true ↔
        (∀ c ∈ clauses, c.group = none → c.holds s catalog d) ∧
        ∀ name, (∃ c ∈ clauses, c.group = some name) →
          ∃ c ∈ clauses, c.group = some name ∧ c.holds s catalog d := by
  obtain ⟨hclauses, hholds⟩ := withGroups_eq emptyGroups (ofClauses clauses)
  have hresolvable : Resolvable config
      (emptyGroups.foldl (fun f name => f.withGroup name) (ofClauses clauses)) := by
    refine ⟨hchecked, fun c hc => ?_⟩
    have hcheck := check_eq_ok_iff.mp hchecked c hc
    rw [hclauses, mem_clauses_ofClauses] at hc
    obtain ⟨key, raw, hparse⟩ := hparsed c hc
    exact Clause.asBool_isSome_of_parse hparse hcheck
  obtain ⟨predicate, warnings, hresolve, hmeets⟩ := outcome_resolve s config catalog hresolvable
  refine ⟨predicate, warnings, hresolve, fun d => ?_⟩
  rw [hmeets, meets, hholds, holds_ofClauses_iff]

/-- A clause on the role of the author, and two alternatives on the id. -/
def sampleClauses : List Clause :=
  [⟨⟨["author"], "role"⟩, .eq, .text "admin", none⟩,
    ⟨⟨[], "id"⟩, .eq, .text "p9", some "ids"⟩,
    ⟨⟨[], "id"⟩, .startsWith, .text "p", some "ids"⟩]

/-- The post meets the clauses, a group without members beside them. -/
theorem accepts_resolve_sample_post :
    ∃ predicate warnings, (((ofClauses sampleClauses).withGroup "none").resolve {}
        ⟨{}, Store.sample.names⟩).outcome (.ofStore Store.sample) = .ok (predicate, warnings) ∧
      (predicate.all fun p => p.accepts Store.samplePost) = true := by
  have hparsed : ∀ c ∈ sampleClauses, ∃ key raw, Clause.parse key raw = .ok c :=
    List.forall_mem_cons.mpr ⟨⟨"author.role", .text "admin", by decide⟩,
      List.forall_mem_cons.mpr ⟨⟨"[or:ids]id", .text "p9", by decide⟩,
        List.forall_mem_cons.mpr
          ⟨⟨"[or:ids]id_startswith", .text "p", by decide⟩, fun _ hc => by cases hc⟩⟩⟩
  obtain ⟨predicate, warnings, hresolve, haccepts⟩ :=
    accepts_resolve_ofClauses_iff Store.sample {}
    ⟨{}, Store.sample.names⟩ sampleClauses ["none"] hparsed rfl
  refine ⟨predicate, warnings, hresolve,
    (haccepts Store.samplePost).mpr ⟨by decide +kernel, ?_⟩⟩
  rintro name ⟨c, hc, hgroup⟩
  have hgroups : ∀ c ∈ sampleClauses, c.group.all (· = "ids") := by decide
  obtain rfl : name = "ids" := by simpa [hgroup] using hgroups c hc
  exact ⟨⟨⟨[], "id"⟩, .startsWith, .text "p", some "ids"⟩, by decide,
    rfl, by decide +kernel⟩

end Filter

end DocQuery
