import DocQuery.Proofs.Engine.Reads
import DocQuery.Proofs.Filter.Checks
import DocQuery.Proofs.Filter.Path
import DocQuery.Proofs.Filter.Resolution
import DocQuery.Proofs.Filter.Sequence
import DocQuery.Proofs.Relation.Candidates
import DocQuery.Proofs.Store.Contents
import Mathlib.Data.List.TakeWhile

/-!
When a filter is refused without a read. The checks come before every look-up, but they leave the
literal of a clause that asks for the existence of a target to the moment the clause is resolved,
and by then the clauses before it have been looked up.
-/
namespace DocQuery

namespace Clause

/-- Whether a clause can be resolved: one that asks for the existence of a target needs a literal
    that reads as a truth value. -/
def isAnswerable (c : Clause) : Bool := !c.path.isExistence || c.value.asBool.isSome

/-- How a computation goes that resolves clauses one after the other on a store: up to the first
    that cannot be resolved, with a look-up for every relation whose target is asked for a field. -/
structure Runs {α : Type} (s : Store) (x : Reading α) (clauses : List Clause) : Prop where
  succeeds : (∀ c ∈ clauses, c.isAnswerable) → ∃ a, x.outcome (.ofStore s) = .ok a
  fails : ¬ (∀ c ∈ clauses, c.isAnswerable) →
    ∃ failure, x.outcome (.ofStore s) = .error failure ∧ failure.isRequestFault
  reads : x.reads (.ofStore s) = [] ↔ ∀ c ∈ clauses.takeWhile isAnswerable, c.path.hops = 0

namespace Runs

variable {α β : Type} {s : Store}

theorem pure (a : α) : Runs s (Pure.pure a : Reading α) [] where
  succeeds _ := ⟨a, rfl⟩
  fails hnot := absurd (fun _ hc => absurd hc List.not_mem_nil) hnot
  reads := by simp

/-- Computations that follow each other run through the clauses of the first, and then of the
    second. -/
theorem bind {x : Reading α} {f : α → Reading β} {first rest : List Clause}
    (hx : Runs s x first) (hf : ∀ a, Runs s (f a) rest) : Runs s (x >>= f) (first ++ rest) := by
  by_cases hall : ∀ c ∈ first, c.isAnswerable
  · obtain ⟨a, ha⟩ := hx.succeeds hall
    have htake : first.takeWhile isAnswerable = first := List.takeWhile_eq_self_iff.mpr hall
    have hreads := hx.reads
    rw [htake] at hreads
    refine ⟨fun hboth => ?_, fun hnot => ?_, ?_⟩
    · rw [Reading.outcome_bind_of_ok ha]
      exact (hf a).succeeds fun c hc => hboth c (List.mem_append_right first hc)
    · rw [Reading.outcome_bind_of_ok ha]
      refine (hf a).fails fun hrest => hnot fun c hc => ?_
      exact (List.mem_append.mp hc).elim (hall c) (hrest c)
    · rw [Reading.reads_bind_of_ok ha, List.append_eq_nil_iff, hreads, (hf a).reads,
        List.takeWhile_append_of_pos hall]
      simp only [List.mem_append, or_imp, forall_and]
  · obtain ⟨failure, hfailure, hfault⟩ := hx.fails hall
    have htake : (first ++ rest).takeWhile isAnswerable = first.takeWhile isAnswerable := by
      rw [List.takeWhile_append, if_neg]
      intro hlength
      have hself := (List.takeWhile_prefix isAnswerable).eq_of_length hlength
      exact hall (List.takeWhile_eq_self_iff.mp hself)
    refine ⟨fun hboth => ?_, fun _ => ?_, ?_⟩
    · exact absurd (fun c hc => hboth c (List.mem_append_left rest hc)) hall
    · exact ⟨failure, Reading.outcome_bind_of_error hfailure, hfault⟩
    · rw [Reading.reads_bind_of_error hfailure, htake, hx.reads]

/-- What it takes for the computation of one clause. -/
theorem single {x : Reading α} {c : Clause}
    (hgood : c.isAnswerable = true →
      ∃ a, x.outcome (.ofStore s) = .ok a ∧ (x.reads (.ofStore s) = [] ↔ c.path.hops = 0))
    (hbad : c.isAnswerable = false → ∃ failure, x.outcome (.ofStore s) = .error failure ∧
      failure.isRequestFault ∧ x.reads (.ofStore s) = []) : Runs s x [c] := by
  cases hc : c.isAnswerable with
  | true =>
    obtain ⟨a, ha, hreads⟩ := hgood hc
    refine ⟨fun _ => ⟨a, ha⟩, fun hnot => absurd ?_ hnot, ?_⟩
    · simpa using hc
    · simpa [List.takeWhile, hc] using hreads
  | false =>
    obtain ⟨failure, hfailure, hfault, hreads⟩ := hbad hc
    refine ⟨fun hall => ?_, fun _ => ⟨failure, hfailure, hfault⟩, ?_⟩
    · have := hall c (List.mem_singleton_self c)
      rw [hc] at this
      cases this
    · simpa [List.takeWhile, hc] using hreads

end Runs

private theorem stepwise_runs (s : Store) :
    Reading.Stepwise (fun x clauses => Runs s x clauses) where
  pure := .pure
  bind := .bind

/-- Looking up targets reads something, if there are any targets. -/
theorem reads_lookUps_ne_nil (s : Store) (p : Predicate) {targets : List Target}
    (hne : targets ≠ []) :
    (targets.mapM fun t => do return (t, ← acceptedIds (Target.name t) p)).reads
      (.ofStore s) ≠ [] := by
  obtain ⟨t, rest, rfl⟩ := List.exists_cons_of_ne_nil hne
  obtain ⟨ids, hids, -⟩ := outcome_acceptedIds s t.name p
  have hfirst : (do return (t, ← acceptedIds t.name p) : Reading (Target × List String)).outcome
      (.ofStore s) = .ok (t, ids) := by rw [Reading.outcome_bind_of_ok hids, Reading.outcome_pure]
  have hscan : (acceptedIds t.name p).reads (.ofStore s) ≠ [] := by
    intro hnil
    cases hnil
  rw [List.mapM_cons, Reading.reads_bind_of_ok hfirst, Reading.reads_bind_of_ok hids]
  intro hnil
  simp only [List.append_eq_nil_iff] at hnil
  exact hscan hnil.1.1

private theorem existence_of_asBool_none (candidates : List Reference) (relation : String)
    {value : Literal} (hvalue : value.asBool = none) : existence candidates relation value =
      .error (.malformed (.existenceNotBoolean (Text.joinDots [relation, ""]))) := by
  unfold existence
  rw [hvalue]

/-- The field that holds a reference tells whether it has a target, so no target is looked up. -/
private theorem runs_resolvePath_existence (s : Store) (catalog : Catalog) (relation : String)
    (op : Operator) (value : Literal) (group : Option String) :
    Runs s (resolvePath catalog "" op value [relation])
      [⟨⟨[relation], ""⟩, op, value, group⟩] := by
  unfold resolvePath
  simp only [and_self, if_true]
  cases hvalue : value.asBool with
  | none =>
    refine .single (fun hgood => ?_) fun _ => ?_
    · simp [isAnswerable, FieldPath.isExistence, hvalue] at hgood
    · rw [existence_of_asBool_none (catalog.candidates relation) relation hvalue]
      exact ⟨_, rfl, rfl, rfl⟩
  | some b =>
    have hsome : value.asBool.isSome := by
      rw [hvalue]
      rfl
    obtain ⟨p, hp, -⟩ := existence_eq_ok (catalog.candidates relation) relation hsome
    refine .single (fun _ => ?_) fun hbad => ?_
    · rw [hp]
      exact ⟨_, rfl, iff_of_true rfl rfl⟩
    · simp [isAnswerable, hvalue] at hbad

private theorem targets_ne_nil (catalog : Catalog) {relation : String} (hrelation : relation ≠ "") :
    Sorted.ofList ((catalog.candidates relation).map Reference.target) ≠ [] := by
  obtain ⟨r, hr⟩ := List.exists_mem_of_ne_nil _ (catalog.candidates_ne_nil hrelation)
  exact List.ne_nil_of_mem (Sorted.mem_ofList.mpr (List.mem_map_of_mem hr))

/-- A path is walked from its last relation back, so one that cannot be resolved fails before any
    look-up, and every other makes one for each relation but the one whose target only has to
    exist. -/
theorem runs_resolvePath (s : Store) (catalog : Catalog) (target : String) (op : Operator)
    (value : Literal) (group : Option String) {relations : List String}
    (hnames : "" ∉ relations) :
    Runs s (resolvePath catalog target op value relations)
      [⟨⟨relations, target⟩, op, value, group⟩] := by
  induction relations with
  | nil =>
    refine .single (fun _ => ⟨_, rfl, ?_⟩) fun hbad => ?_
    · exact iff_of_true rfl rfl
    · cases hbad
  | cons relation rest ih =>
    obtain ⟨hrelation, hrest⟩ : "" ≠ relation ∧ "" ∉ rest := by simpa [not_or] using hnames
    by_cases hexists : rest = [] ∧ target = ""
    · obtain ⟨rfl, rfl⟩ := hexists
      exact runs_resolvePath_existence s catalog relation op value group
    have hsame : FieldPath.isExistence ⟨relation :: rest, target⟩ =
        FieldPath.isExistence ⟨rest, target⟩ := FieldPath.isExistence_cons hexists
    have hinner := ih hrest
    unfold resolvePath
    simp only [if_neg hexists]
    refine .single (fun hgood => ?_) fun hbad => ?_
    · obtain ⟨inner, hok⟩ := hinner.succeeds (by simpa [isAnswerable, hsame] using hgood)
      obtain ⟨found, hfound, -⟩ := outcome_lookUps s inner.predicate (catalog.candidates relation)
      have hhops : FieldPath.hops ⟨relation :: rest, target⟩ ≠ 0 := by
        rw [FieldPath.hops_cons hexists]
        exact Nat.succ_ne_zero _
      refine ⟨_, (Reading.outcome_bind_of_ok hok).trans (Reading.outcome_bind_of_ok hfound),
        iff_of_false (fun hnil => ?_) hhops⟩
      rw [Reading.reads_bind_of_ok hok, Reading.reads_bind_of_ok hfound,
        List.append_eq_nil_iff, List.append_eq_nil_iff] at hnil
      exact reads_lookUps_ne_nil s inner.predicate (targets_ne_nil catalog (Ne.symm hrelation))
        hnil.2.1
    · have hbad' : isAnswerable ⟨⟨rest, target⟩, op, value, group⟩ = false := by
        simpa [isAnswerable, hsame] using hbad
      obtain ⟨failure, hfailure, hfault⟩ := hinner.fails (by simpa using hbad')
      refine ⟨failure, Reading.outcome_bind_of_error hfailure, hfault, ?_⟩
      rw [Reading.reads_bind_of_error hfailure, hinner.reads]
      simp [List.takeWhile, hbad']

theorem runs_resolve (s : Store) (catalog : Catalog) {c : Clause}
    (hnames : "" ∉ c.path.relations) :
    Runs s (c.resolve catalog) [c] :=
  runs_resolvePath s catalog c.path.target c.op c.value c.group hnames

end Clause

namespace Filter

private theorem isRequestFault_of_check {config : Config} {f : Filter} {failure : Failure}
    (hcheck : f.check config = .error failure) : failure.isRequestFault = true := by
  obtain ⟨_, c, _, _, _, hc⟩ := forM_eq_error_iff.mp hcheck
  exact (Clause.check_eq_error_iff.mp hc).isRequestFault

/-- Resolving a filter that passes the checks resolves its clauses in turn. -/
theorem runs_resolve (s : Store) {config : Config} (catalog : Catalog) {f : Filter}
    (hnames : ∀ c ∈ f.clauses, "" ∉ c.path.relations) (hcheck : f.check config = .ok ()) :
    Clause.Runs s (f.resolve config catalog) f.clauses := by
  have heach : Clause.Runs s (f.resolve config catalog) (f.clauses.flatMap fun c => [c]) :=
    resolve_stepwise (Clause.stepwise_runs s) hcheck fun c hc =>
      Clause.runs_resolve s catalog (hnames c hc)
  rwa [List.flatMap_singleton'] at heach

/-- A store is asked for nothing on account of a filter that is refused exactly when the checks
    refuse it, or no clause that needs a look-up comes before the first that asks for the existence
    of a target by a literal that is no truth value. On a store in memory a filter is refused only
    for what it asks. -/
theorem reads_resolve_eq_nil_iff {s : Store} {config : Config} {catalog : Catalog} {f : Filter}
    (hnames : ∀ c ∈ f.clauses, "" ∉ c.path.relations) {failure : Failure}
    (hrefused : (f.resolve config catalog).outcome (.ofStore s) = .error failure) :
    failure.isRequestFault = true ∧
      ((f.resolve config catalog).reads (.ofStore s) = [] ↔
        f.check config ≠ .ok () ∨ ∀ c ∈ f.clauses.takeWhile Clause.isAnswerable,
          c.path.hops = 0) := by
  cases hcheck : f.check config with
  | error first =>
    have hfirst : (liftM (f.check config) : Reading Unit).outcome (.ofStore s) = .error first :=
      hcheck
    unfold resolve at hrefused ⊢
    rw [Reading.outcome_bind_of_error hfirst] at hrefused
    cases hrefused
    refine ⟨isRequestFault_of_check hcheck, iff_of_true ?_ (.inl fun hok => by cases hok)⟩
    rw [Reading.reads_bind_of_error hfirst, Reading.reads_lift]
  | ok _ =>
    have hruns := runs_resolve s catalog hnames hcheck
    have hnot : ¬ ∀ c ∈ f.clauses, c.isAnswerable := by
      intro hall
      obtain ⟨answer, hanswer⟩ := hruns.succeeds hall
      rw [hrefused] at hanswer
      cases hanswer
    obtain ⟨failure', hfailure, hfault⟩ := hruns.fails hnot
    rw [hrefused] at hfailure
    cases hfailure
    refine ⟨hfault, ?_⟩
    simpa using hruns.reads

/-- A look-up of the author, and then a question whether there is an author that no literal like
    this one answers. -/
def unanswerableClauses : List Clause :=
  [⟨⟨["author"], "role"⟩, .eq, .text "admin", none⟩,
    ⟨⟨["author"], ""⟩, .isNull, .text "maybe", none⟩]

/-- With the question first, the author is not looked up. -/
theorem reads_resolve_question_first :
    ((ofClauses unanswerableClauses.reverse).resolve {} ⟨{}, Store.sample.names⟩).reads
      (.ofStore Store.sample) = [] := by
  have hrefused :
      ((ofClauses unanswerableClauses.reverse).resolve {} ⟨{}, Store.sample.names⟩).outcome
      (.ofStore Store.sample) = .error (.malformed (.existenceNotBoolean "author.")) := rfl
  exact (reads_resolve_eq_nil_iff (by decide) hrefused).2.mpr (.inr (by decide))

/-- The checks pass both clauses, so the author is looked up before the filter is refused. -/
theorem reads_resolve_lookUp_first :
    ((ofClauses unanswerableClauses).resolve {} ⟨{}, Store.sample.names⟩).outcome
      (.ofStore Store.sample) = .error (.malformed (.existenceNotBoolean "author.")) ∧
      ((ofClauses unanswerableClauses).resolve {} ⟨{}, Store.sample.names⟩).reads
        (.ofStore Store.sample) =
        [.scan "users" ⟨some (.test "role" .eq (.text "admin")), [⟨"id", .ascending⟩],
          none, 0, false⟩] :=
  ⟨rfl, rfl⟩

end Filter

end DocQuery
