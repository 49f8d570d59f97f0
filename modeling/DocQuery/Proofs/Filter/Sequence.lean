import DocQuery.Filter.Resolved

namespace DocQuery

namespace Reading

/-- Whether a relation between computations and what they go through, in order, is kept when one
    computation follows another. -/
structure Stepwise {κ : Type} (P : {α : Type} → Reading α → List κ → Prop) : Prop where
  pure {α : Type} (a : α) : P (Pure.pure a : Reading α) []
  bind {α β : Type} {x : Reading α} {f : α → Reading β} {first rest : List κ}
    (hx : P x first)
    (hf : ∀ a, P (f a) rest) : P (x >>= f) (first ++ rest)

namespace Stepwise

variable {κ α β : Type} {P : {α : Type} → Reading α → List κ → Prop}

/-- Reshaping what a computation comes to goes through nothing more. -/
theorem map (hP : Stepwise P) {x : Reading α} {gone : List κ} (hx : P x gone) (f : α → β) :
    P (x >>= fun a => Pure.pure (f a)) gone :=
  List.append_nil gone ▸ hP.bind hx fun a => hP.pure (f a)

/-- Computations for the items of a list follow each other, so the relation is kept along the list.
    -/
theorem mapM (hP : Stepwise P) {f : α → Reading β} {through : α → List κ} {as : List α}
    (hf : ∀ a ∈ as, P (f a) (through a)) : P (as.mapM f) (as.flatMap through) := by
  induction as with
  | nil => exact hP.pure []
  | cons a rest ih =>
    rw [List.mapM_cons, List.flatMap_cons]
    exact hP.bind (hf a List.mem_cons_self) fun b =>
      hP.map (ih fun a' ha' => hf a' (List.mem_cons_of_mem a ha')) _

end Stepwise

end Reading

namespace Filter

/-- Groups without members have no clauses. -/
theorem clauses_eq_append (f : Filter) :
    f.clauses = f.required ++ (f.groups.filter fun g => !g.2.isEmpty).flatMap (·.2) := by
  unfold clauses
  congr 1
  induction f.groups with
  | nil => rfl
  | cons g rest ih =>
    cases hg : g.2.isEmpty with
    | true => simp [ih, List.isEmpty_iff.mp hg]
    | false => simp [ih, hg]

/-- Resolving a filter that passes the checks resolves its clauses in turn. -/
theorem resolve_stepwise {κ : Type} {P : {α : Type} → Reading α → List κ → Prop}
    (hP : Reading.Stepwise P) {config : Config} {catalog : Catalog} {f : Filter}
    {through : Clause → List κ} (hcheck : f.check config = .ok ())
    (hclauses : ∀ c ∈ f.clauses, P (c.resolve catalog) (through c)) :
    P (f.resolve config catalog) (f.clauses.flatMap through) := by
  have hchecked : P (liftM (f.check config) : Reading Unit) [] := by
    rw [hcheck]
    exact hP.pure ()
  rw [← List.nil_append (f.clauses.flatMap through)]
  refine hP.bind hchecked fun _ => ?_
  by_cases hempty : f.isEmpty
  · rw [if_pos hempty, List.isEmpty_iff.mp hempty]
    exact hP.pure _
  · rw [clauses_eq_append] at hclauses ⊢
    have hrequired : P (f.required.mapM (Clause.resolve catalog)) (f.required.flatMap through) :=
      hP.mapM fun c hc => hclauses c (List.mem_append_left _ hc)
    have hgroups : P
        ((f.groups.filter fun g => !g.2.isEmpty).mapM fun g => g.2.mapM (Clause.resolve catalog))
        ((f.groups.filter fun g => !g.2.isEmpty).flatMap fun g => g.2.flatMap through) :=
      hP.mapM fun g hg => hP.mapM fun c hc =>
        hclauses c (List.mem_append_right _ (List.mem_flatMap.mpr ⟨g, hg, hc⟩))
    rw [if_neg hempty, List.flatMap_append, List.flatMap_assoc]
    exact hP.bind hrequired fun required => hP.map hgroups _

end Filter

end DocQuery
