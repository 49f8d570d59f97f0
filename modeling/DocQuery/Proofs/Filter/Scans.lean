import DocQuery.Proofs.Engine.Reads
import DocQuery.Proofs.Filter.Path
import DocQuery.Proofs.Filter.Resolution
import DocQuery.Proofs.Filter.Sequence

namespace DocQuery

/-- The collection that a read scans, if it is a scan. -/
def Read.scanned? : Read → Option String
  | .scan collection _ => some collection
  | .list | .fetch _ _ => none

/-- The collections that a computation scans on a store, in order. A read that is no scan shows as
    none. -/
def Reading.scanned {α : Type} (x : Reading α) (s : Store) : List (Option String) :=
  (x.reads (.ofStore s)).map Read.scanned?

/-- Whether a computation comes to something on a store, and to get there scans collections in order
    and reads nothing else. -/
structure Reading.Scans {α : Type} (s : Store) (x : Reading α) (collections : List String) :
    Prop where
  succeeds : ∃ a, x.outcome (.ofStore s) = .ok a
  scanned : x.scanned s = collections.map some

namespace Reading

private theorem stepwise_scans (s : Store) :
    Stepwise (fun x collections => Scans s x collections) where
  pure a := ⟨⟨a, rfl⟩, rfl⟩
  bind := by
    intro α β x f first rest hx hf
    obtain ⟨a, ha⟩ := hx.succeeds
    obtain ⟨b, hb⟩ := (hf a).succeeds
    refine ⟨⟨b, (outcome_bind_of_ok ha).trans hb⟩, ?_⟩
    rw [Reading.scanned, reads_bind_of_ok ha, List.map_append, List.map_append,
      ← hx.scanned, ← (hf a).scanned]
    rfl

end Reading

/-- The targets that a relation may lead to, each once. -/
def Catalog.targets (catalog : Catalog) (relation : String) : List Target :=
  Sorted.ofList ((catalog.candidates relation).map Reference.target)

namespace FieldPath

/-- The look-ups that a path takes, each as the targets that it covers. What is found for a relation
    has to be known before the relation that leads to it can be looked up. -/
def lookUps (catalog : Catalog) (p : FieldPath) : List (List Target) :=
  (p.relations.take p.hops).reverse.map catalog.targets

private theorem lookUps_existence (catalog : Catalog) (relation : String) :
    lookUps catalog ⟨[relation], ""⟩ = [] := rfl

/-- A relation is looked up after those that follow it, unless it is the last of an existence
    path. -/
theorem lookUps_cons (catalog : Catalog) {relation : String} {rest : List String} {target : String}
    (hlookUp : ¬ (rest = [] ∧ target = "")) : lookUps catalog ⟨relation :: rest, target⟩ =
      lookUps catalog ⟨rest, target⟩ ++ [catalog.targets relation] := by
  unfold lookUps
  rw [hops_cons hlookUp, List.take_succ_cons, List.reverse_cons,
    List.map_append, List.map_singleton]

/-- Whether look-ups are those that a path takes: one for each relation that another collection
    answers for, the last of these relations first, and each covering every target of its relation
    once. -/
structure IsLookedUp (catalog : Catalog) (p : FieldPath) (lookUps : List (List Target)) : Prop where
  hops : lookUps.length = p.hops
  innermost : List.Forall₂ (fun relation targets => ∀ t, t ∈ targets ↔
    ∃ r ∈ catalog.candidates relation, r.target = t) (p.relations.take p.hops).reverse lookUps
  once : ∀ targets ∈ lookUps, targets.Nodup
  direct : p.isDirect → lookUps = []
  existence : p.isExistence → p.relations.length = 1 → lookUps = []

private theorem hops_le (p : FieldPath) : p.hops ≤ p.relations.length := by
  unfold hops
  split
  · exact Nat.sub_le _ _
  · exact Nat.le_refl _

private theorem isLookedUp_lookUps (catalog : Catalog) (p : FieldPath) :
    IsLookedUp catalog p (p.lookUps catalog) := by
  have hlength : (p.lookUps catalog).length = p.hops := by
    rw [lookUps, List.length_map, List.length_reverse, List.length_take, Nat.min_eq_left p.hops_le]
  refine ⟨hlength, ?_, fun targets htargets => ?_, fun hdirect => ?_, fun hexists hsingle => ?_⟩
  · refine List.forall₂_map_right_iff.mpr (List.forall₂_same.mpr fun relation _ t => ?_)
    rw [Catalog.targets, Sorted.mem_ofList, List.mem_map]
  · obtain ⟨relation, -, rfl⟩ := List.mem_map.mp htargets
    exact Sorted.nodup_ofList _
  · rw [lookUps, List.isEmpty_iff.mp hdirect, List.take_nil]
    rfl
  · have hnone : p.hops = 0 := by rw [FieldPath.hops, if_pos hexists, hsingle]
    rw [hnone] at hlength
    exact List.length_eq_zero_iff.mp hlength

end FieldPath

namespace Clause

open Reading (Scans stepwise_scans)

/-- A path is looked up from its last relation back, whether or not anything is found on the way. -/
theorem scans_resolvePath (s : Store) (catalog : Catalog) (target : String) (op : Operator)
    (value : Literal) {relations : List String}
    (hvalue : relations ≠ [] → target = "" → value.asBool.isSome) :
    Scans s (resolvePath catalog target op value relations)
      ((FieldPath.lookUps catalog ⟨relations, target⟩).flatten.map Target.name) := by
  induction relations with
  | nil => exact (stepwise_scans s).pure _
  | cons relation rest ih =>
    unfold resolvePath
    by_cases hexists : rest = [] ∧ target = ""
    · obtain ⟨p, hp, -⟩ := existence_eq_ok (catalog.candidates relation) relation
        (hvalue (List.cons_ne_nil _ _) hexists.2)
      obtain ⟨rfl, rfl⟩ := hexists
      simp only [and_self, if_true]
      rw [FieldPath.lookUps_existence, hp]
      exact (stepwise_scans s).pure _
    · have hinner := ih fun _ htarget => hvalue (List.cons_ne_nil _ _) htarget
      have htargets (p : Predicate) : Scans s
          ((catalog.targets relation).mapM fun t =>
            do return (t, ← acceptedIds (Target.name t) p))
          ((catalog.targets relation).flatMap fun t => [t.name]) :=
        (stepwise_scans s).mapM fun t _ => ⟨⟨_, rfl⟩, rfl⟩
      simp only [if_neg hexists]
      rw [FieldPath.lookUps_cons catalog hexists, List.flatten_append,
        List.flatten_singleton, List.map_append,
        List.map_eq_flatMap (l := catalog.targets relation)]
      exact (stepwise_scans s).bind hinner fun inner =>
        (stepwise_scans s).map (htargets inner.predicate) _

end Clause

namespace Filter

/-- On every store, a filter of clauses that were read from keys and pass the checks scans, clause
    after clause, the targets of each relation that a look-up answers for, from the last such
    relation to the first. What the collections hold makes no difference, as long as they have the
    same names. -/
theorem scans_resolve_by_names {config : Config} {f : Filter}
    (hparsed : ∀ c ∈ f.clauses, ∃ key raw, Clause.parse key raw = .ok c)
    (hchecked : f.check config = .ok ()) (s : Store) :
    Reading.Scans s (f.resolve config ⟨config.users, s.names⟩)
        (f.clauses.flatMap fun c =>
          (c.path.lookUps ⟨config.users, s.names⟩).flatten.map Target.name) ∧
      (∀ c ∈ f.clauses,
        c.path.IsLookedUp ⟨config.users, s.names⟩
          (c.path.lookUps ⟨config.users, s.names⟩)) ∧
      ∀ other : Store, other.names = s.names →
        (f.resolve config ⟨config.users, other.names⟩).scanned other =
          (f.resolve config ⟨config.users, s.names⟩).scanned s := by
  have hscans (s : Store) (catalog : Catalog) : Reading.Scans s (f.resolve config catalog)
      (f.clauses.flatMap fun c => (c.path.lookUps catalog).flatten.map Target.name) := by
    refine resolve_stepwise (Reading.stepwise_scans s) hchecked fun c hc => ?_
    obtain ⟨key, raw, hparse⟩ := hparsed c hc
    refine Clause.scans_resolvePath s catalog c.path.target c.op c.value
      fun hrelations htarget => ?_
    have hexists : c.path.isExistence := by simp [FieldPath.isExistence, hrelations, htarget]
    exact Clause.asBool_isSome_of_parse hparse (check_eq_ok_iff.mp hchecked c hc) hexists
  refine ⟨hscans s _, fun c _ => FieldPath.isLookedUp_lookUps _ c.path, fun other hnames => ?_⟩
  rw [(hscans other _).scanned, (hscans s _).scanned, hnames]

/-- A clause on the post of the author, two that ask whether the author has a post and whether there
    is an author, and one on the id. -/
def authorClauses : List Clause :=
  [⟨⟨["author", "post"], "id"⟩, .eq, .text "p1", none⟩,
    ⟨⟨["author", "post"], ""⟩, .isNull, .bool false, none⟩,
    ⟨⟨["author"], ""⟩, .isNull, .bool false, none⟩,
    ⟨⟨[], "id"⟩, .eq, .text "p1", none⟩]

/-- The posts are scanned before the users, and then the users once more. Where there are neither,
    the same collections are scanned. -/
theorem scans_resolve_authorClauses :
    Reading.Scans Store.sample
        ((ofClauses authorClauses).resolve { maxFilterDepth := 2 } ⟨{}, Store.sample.names⟩)
        ["posts", "users", "users"] ∧
      ((ofClauses authorClauses).resolve { maxFilterDepth := 2 }
        ⟨{}, ["posts", "users"]⟩).scanned
          ⟨[("posts", []), ("users", [])]⟩ =
        ((ofClauses authorClauses).resolve { maxFilterDepth := 2 }
          ⟨{}, Store.sample.names⟩).scanned
          Store.sample := by
  have hparsed : ∀ c ∈ (ofClauses authorClauses).clauses, ∃ key raw,
      Clause.parse key raw = .ok c :=
    List.forall_mem_cons.mpr ⟨⟨"author.post.id", .text "p1", by decide⟩,
      List.forall_mem_cons.mpr ⟨⟨"author.post._isnull", .text "false", by decide⟩,
        List.forall_mem_cons.mpr ⟨⟨"author._isnull", .text "false", by decide⟩,
          List.forall_mem_singleton.mpr ⟨"id", .text "p1", by decide⟩⟩⟩⟩
  have hchecked : (ofClauses authorClauses).check { maxFilterDepth := 2 } = .ok () := rfl
  obtain ⟨hscans, -, hother⟩ := scans_resolve_by_names hparsed hchecked Store.sample
  exact ⟨hscans, hother ⟨[("posts", []), ("users", [])]⟩ rfl⟩

end Filter

end DocQuery
