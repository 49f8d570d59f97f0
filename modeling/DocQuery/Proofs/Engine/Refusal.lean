import DocQuery.Proofs.Engine.Pages
import DocQuery.Proofs.Engine.Reads
import DocQuery.Proofs.Filter.Checks
import DocQuery.Proofs.Query.Params

namespace DocQuery

namespace Params

variable {config : Config} {collection : String} {p : Params}

/-- Whether parameters ask for the page after a number of pages whose documents 64 bits do not
    count. -/
def StartsPast (config : Config) (p : Params) (before : Nat) : Prop :=
  p.page = some (before + 1) ∧ 2 ^ 64 ≤ before * config.clampLimit p.limit

private theorem toQuery_eq_error_iff_startsPast {e : RequestError} :
    p.toQuery collection config = .error e ↔
    ∃ before, p.StartsPast config before ∧ e = .pageOutOfRange (before + 1) := by
  rw [toQuery_eq_error_iff]
  exact exists_congr fun before =>
    ⟨fun h => ⟨⟨h.1, h.2.2⟩, h.2.1⟩, fun h => ⟨h.1.1, h.2, h.1.2⟩⟩

private theorem exists_toQuery_iff :
    (∃ q, p.toQuery collection config = .ok q) ↔ ∀ before, ¬ p.StartsPast config before := by
  simp only [exists_eq_ok_iff, ne_eq, toQuery_eq_error_iff_startsPast, not_exists, not_and]
  constructor
  · exact fun hnone before hpast => hnone _ before hpast rfl
  · exact fun hnone _ before hpast => absurd hpast (hnone before)

private theorem filter_of_toQuery {q : Query} (hquery : p.toQuery collection config = .ok q) :
    q.filter = Filter.ofClauses p.clauses := by
  obtain ⟨offset, -, hq⟩ := bind_eq_ok_iff.mp hquery
  cases hq
  rfl

end Params

namespace Engine

/-- The failure of text pairs, if they have one. -/
inductive Refusal (config : Config) (pairs : List (String × String)) : Failure → Prop where
  | pair {cause : RequestError} (first : IsFirstFault Params.Fault pairs cause) :
      Refusal config pairs (.malformed cause)
  | page (sound : ∀ pair ∈ pairs, ∀ cause, ¬ Params.Fault pair cause) {p : Params}
      (reads : Params.Reads pairs p) {before : Nat} (past : p.StartsPast config before) :
      Refusal config pairs (.malformed (.pageOutOfRange (before + 1)))
  | clause (sound : ∀ pair ∈ pairs, ∀ cause, ¬ Params.Fault pair cause) {p : Params}
      (reads : Params.Reads pairs p) (counts : ∀ before, ¬ p.StartsPast config before)
      {failure : Failure} (first : Filter.IsFirstOffence config p.clauses failure) :
      Refusal config pairs failure

/-- Whatever pairs are refused for, the request is at fault. -/
theorem Refusal.isRequestFault {config : Config} {pairs : List (String × String)}
    {failure : Failure} (hrefusal : Refusal config pairs failure) :
    failure.isRequestFault = true := by
  cases hrefusal with
  | pair | page => rfl
  | clause _ _ _ hfirst =>
    obtain ⟨_, c, _, _, hoffends, _⟩ := hfirst
    exact hoffends.isRequestFault

/-- Clauses that were read from pairs leave nothing but the checks to fail. -/
theorem outcome_run_eq_error_iff {s : Store} (hs : s.Filed) {config : Config} {q : Query}
    (hread : ∀ c ∈ q.filter.clauses, ∃ key value, Clause.parse key (.text value) = .ok c)
    {failure : Failure} :
    (run config q).outcome (.ofStore s) = .error failure ↔
      q.filter.check config = .error failure := by
  cases hcheck : q.filter.check config with
  | error first =>
    obtain ⟨catalog, hcatalog⟩ := outcome_catalogFor s config q
    have hchecks : (liftM (q.filter.check config) : Reading Unit).outcome
        (.ofStore s) = .error first := hcheck
    have hresolve : (q.filter.resolve config catalog).outcome (.ofStore s) = .error first :=
      Reading.outcome_bind_of_error hchecks
    unfold run
    rw [Reading.outcome_bind_of_ok hcatalog, Reading.outcome_bind_of_error hresolve,
      Except.error.injEq, Except.error.injEq]
  | ok _ =>
    have hresolvable : q.filter.Resolvable config := by
      refine ⟨hcheck, fun c hc => ?_⟩
      obtain ⟨key, value, hparse⟩ := hread c hc
      exact Clause.asBool_isSome_of_parse hparse (Filter.check_eq_ok_iff.mp hcheck c hc)
    obtain ⟨predicate, warnings, hresolve⟩ := outcome_resolveFilter s config hresolvable
    obtain ⟨answer, hrun, -⟩ := outcome_run_eq_ok hs config q hresolve
    rw [hrun]
    exact iff_of_false (fun h => by cases h) (fun h => by cases h)

private theorem outcome_runPairs (config : Config) (collection : String)
    (pairs : List (String × String)) (b : Backend) : (runPairs config collection pairs).outcome b =
      ((Params.parse pairs >>= fun p => p.toQuery collection config).mapError Failure.malformed >>=
        fun q => (run config q).outcome b) := by
  unfold runPairs
  rw [Reading.outcome_bind]
  rfl

/-- On a store in memory a query fails for what its pairs are refused for, and for nothing else. -/
theorem outcome_runPairs_eq_error_iff {s : Store} (hs : s.Filed) {config : Config}
    {collection : String} {pairs : List (String × String)} {failure : Failure} :
    (runPairs config collection pairs).outcome (.ofStore s) = .error failure ↔
      Refusal config pairs failure := by
  have hrun : ∀ {p q}, Params.parse pairs = .ok p → p.toQuery collection config = .ok q →
      ((run config q).outcome (.ofStore s) = .error failure ↔
        Filter.IsFirstOffence config p.clauses failure) := by
    intro p q hparse hquery
    have hfilter := Params.filter_of_toQuery hquery
    rw [← Filter.check_ofClauses_eq_error_iff, ← hfilter]
    refine outcome_run_eq_error_iff hs fun c hc => ?_
    rw [hfilter, Filter.mem_clauses_ofClauses] at hc
    exact (Params.reads_of_parse hparse).exists_parse hc
  rw [outcome_runPairs, bind_eq_error_iff, mapError_eq_error_iff]
  simp only [bind_eq_error_iff, mapError_eq_ok_iff, bind_eq_ok_iff]
  constructor
  · rintro (⟨cause, rfl, hparse | ⟨p, hparse, hpage⟩⟩ |
      ⟨q, ⟨p, hparse, hquery⟩, hfailure⟩)
    · exact .pair (Params.parse_eq_error_iff.mp hparse)
    · obtain ⟨before, hpast, rfl⟩ := Params.toQuery_eq_error_iff_startsPast.mp hpage
      exact .page (Params.exists_parse_iff.mp ⟨p, hparse⟩) (Params.reads_of_parse hparse) hpast
    · exact .clause (Params.exists_parse_iff.mp ⟨p, hparse⟩) (Params.reads_of_parse hparse)
        (Params.exists_toQuery_iff.mp ⟨q, hquery⟩) ((hrun hparse hquery).mp hfailure)
  · intro hrefusal
    cases hrefusal with
    | pair hfirst => exact .inl ⟨_, rfl, .inl (Params.parse_eq_error_iff.mpr hfirst)⟩
    | page hsound hreads hpast =>
      obtain ⟨p, hparse⟩ := Params.exists_parse_iff.mpr hsound
      obtain ⟨-, hlimit, hpage⟩ := hreads.unique (Params.reads_of_parse hparse)
      unfold Params.StartsPast at hpast
      rw [hlimit, hpage] at hpast
      exact .inl ⟨_, rfl,
        .inr ⟨p, hparse, Params.toQuery_eq_error_iff_startsPast.mpr ⟨_, hpast, rfl⟩⟩⟩
    | clause hsound hreads hcounts hfirst =>
      obtain ⟨p, hparse⟩ := Params.exists_parse_iff.mpr hsound
      obtain ⟨hclauses, hlimit, hpage⟩ := hreads.unique (Params.reads_of_parse hparse)
      unfold Params.StartsPast at hcounts
      rw [hlimit, hpage] at hcounts
      obtain ⟨q, hquery⟩ : ∃ q, p.toQuery collection config = .ok q :=
        Params.exists_toQuery_iff.mpr hcounts
      rw [hclauses] at hfirst
      exact .inr ⟨q, ⟨p, hparse, hquery⟩, (hrun hparse hquery).mpr hfirst⟩

/-- Text pairs are refused on account of a pair, of the page, or of a clause. -/
theorem exists_refusal_iff {config : Config} {pairs : List (String × String)} :
    (∃ failure, Refusal config pairs failure) ↔
      (∃ pair ∈ pairs, ∃ cause, Params.Fault pair cause) ∨
        ∃ p, Params.Reads pairs p ∧ ((∃ before, p.StartsPast config before) ∨
          ∃ c ∈ p.clauses, config.maxFilterDepth < c.path.hops ∨ c.path.isExistence ∧
            c.op ≠ .isNull) := by
  constructor
  · rintro ⟨failure, hrefusal⟩
    cases hrefusal with
    | pair hfirst => exact .inl (exists_isFirstFault_iff.mp ⟨_, hfirst⟩)
    | page hsound hreads hpast => exact .inr ⟨_, hreads, .inl ⟨_, hpast⟩⟩
    | clause hsound hreads hcounts hfirst =>
      obtain ⟨c, hc, hoffends⟩ := Filter.exists_isFirstOffence_iff.mp ⟨_, hfirst⟩
      exact .inr ⟨_, hreads, .inr ⟨c, hc, Clause.exists_offends_iff.mp hoffends⟩⟩
  · intro hrefused
    by_cases hpairs : ∃ pair ∈ pairs, ∃ cause, Params.Fault pair cause
    · obtain ⟨cause, hfirst⟩ := exists_isFirstFault_iff.mpr hpairs
      exact ⟨_, .pair hfirst⟩
    · have hsound : ∀ pair ∈ pairs, ∀ cause, ¬ Params.Fault pair cause :=
        fun pair hpair cause hfault => hpairs ⟨pair, hpair, cause, hfault⟩
      obtain ⟨p, hreads, hrest⟩ := hrefused.resolve_left hpairs
      by_cases hpage : ∃ before, p.StartsPast config before
      · obtain ⟨before, hpast⟩ := hpage
        exact ⟨_, .page hsound hreads hpast⟩
      · obtain ⟨c, hc, hoffends⟩ := hrest.resolve_left hpage
        obtain ⟨failure, hfirst⟩ :=
          Filter.exists_isFirstOffence_iff.mpr ⟨c, hc, Clause.exists_offends_iff.mpr hoffends⟩
        exact ⟨failure, .clause hsound hreads (not_exists.mp hpage) hfirst⟩

/-- On a store in memory, text pairs fail exactly when a pair has a fault, the page starts past 64
    bits, or a clause may not be resolved. The failure is that of the first such pair in the order
    of the pairs, else that of the page, else that of the first such clause, the clauses without a
    group first and the groups by name. It is always the fault of the request. -/
theorem runPairs_fails_iff {s : Store} (hreached : s.Reachable) (config : Config)
    (collection : String) (pairs : List (String × String)) :
    ((∃ failure, (runPairs config collection pairs).outcome (.ofStore s) = .error failure) ↔
      (∃ pair ∈ pairs, ∃ cause, Params.Fault pair cause) ∨
        ∃ p, Params.Reads pairs p ∧ ((∃ before, p.StartsPast config before) ∨
          ∃ c ∈ p.clauses, config.maxFilterDepth < c.path.hops ∨ c.path.isExistence ∧
            c.op ≠ .isNull)) ∧
    ∀ failure, ((runPairs config collection pairs).outcome (.ofStore s) = .error failure ↔
        Refusal config pairs failure) ∧
      ((runPairs config collection pairs).outcome (.ofStore s) = .error failure →
        failure.isRequestFault = true) := by
  have hfails : ∀ failure,
      (runPairs config collection pairs).outcome (.ofStore s) = .error failure ↔
      Refusal config pairs failure := fun failure => outcome_runPairs_eq_error_iff hreached.filed
  refine ⟨?_, fun failure =>
    ⟨hfails failure, fun hfailure => ((hfails failure).mp hfailure).isRequestFault⟩⟩
  simp only [hfails]
  exact exists_refusal_iff

/-- A path with too many look-ups in a group, and after it a question about the author that is no
    null test. -/
def refusedPairs : List (String × String) :=
  [("page", "2"), ("[or:far]author.company.name", "a"), ("author.", "p1")]

/-- The clause without a group counts, though it comes last. -/
theorem runPairs_fails_refusedPairs :
    Store.sample.Reachable ∧
    Refusal {} refusedPairs (.malformed (.existenceOperator "author." .eq)) ∧
      (runPairs {} "posts" refusedPairs).outcome (.ofStore Store.sample) =
        .error (.malformed (.existenceOperator "author." .eq)) := by
  have hparse : Params.parse refusedPairs = .ok
      { clauses := [⟨⟨["author", "company"], "name"⟩, .eq, .text "a", some "far"⟩,
          ⟨⟨["author"], ""⟩, .eq, .text "p1", none⟩], page := some 2 } := rfl
  have hrefusal : Refusal {} refusedPairs (.malformed (.existenceOperator "author." .eq)) := by
    refine .clause (Params.exists_parse_iff.mp ⟨_, hparse⟩) (Params.reads_of_parse hparse) ?_ ?_
    · rintro before ⟨hpage, hlarge⟩
      cases hpage
      exact absurd hlarge (by decide)
    · refine ⟨[_], _, [], rfl, .existence rfl (by decide), ?_, ?_⟩
      · intro b hb hgroup
        cases List.mem_singleton.mp hb
        cases hgroup
      · rintro b - hgroup
        cases hb : b.group <;> rw [hb] at hgroup <;> cases hgroup
  exact ⟨Store.reachable_sample, hrefusal,
    ((runPairs_fails_iff Store.reachable_sample {} "posts" refusedPairs).2 _).1.mpr hrefusal⟩

end Engine

end DocQuery
