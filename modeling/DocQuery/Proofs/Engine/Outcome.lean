import DocQuery.Engine.Backend
import DocQuery.Proofs.Steps

namespace DocQuery.Reading

/-- What a reading comes to on a backend, apart from the reads it makes. -/
def outcome {α : Type} (x : Reading α) (b : Backend) : Except Failure α := (x.run b).result

@[simp] theorem outcome_pure {α : Type} (a : α) (b : Backend) :
    (pure a : Reading α).outcome b = .ok a := rfl

/-- Outcomes follow each other as the steps of `Except` do. -/
theorem outcome_bind {α β : Type} (x : Reading α) (f : α → Reading β) (b : Backend) :
    (x >>= f).outcome b = x.outcome b >>= fun a => (f a).outcome b := by
  unfold outcome
  rw [run_bind, Run.andThen]
  cases h : (x.run b).result <;> rfl

/-- A step whose outcome is known gives way to the rest. -/
theorem outcome_bind_of_ok {α β : Type} {x : Reading α} {f : α → Reading β} {b : Backend}
    {a : α} (hx : x.outcome b = .ok a) : (x >>= f).outcome b = (f a).outcome b := by
  rw [outcome_bind, hx]
  rfl

/-- A computation that comes to something came to something in each of its two steps. -/
theorem outcome_bind_eq_ok_iff {α β : Type} {x : Reading α} {f : α → Reading β} {b : Backend}
    {c : β} :
    (x >>= f).outcome b = .ok c ↔ ∃ a, x.outcome b = .ok a ∧ (f a).outcome b = .ok c := by
  rw [outcome_bind, bind_eq_ok_iff]

/-- A list comes to something exactly if every item does, and then item by item. -/
theorem outcome_mapM_eq_ok_iff {α β : Type} {f : α → Reading β} {b : Backend} {as : List α}
    {cs : List β} :
    (as.mapM f).outcome b = .ok cs ↔
      List.Forall₂ (fun a c => (f a).outcome b = .ok c) as cs := by
  have hmapM : (as.mapM f).outcome b = as.mapM fun a => (f a).outcome b := by
    induction as with
    | nil => rfl
    | cons a rest ih =>
      simp only [List.mapM_cons, outcome_bind, ih]
      rfl
  rw [hmapM, mapM_eq_ok_iff]

/-- When every item of a list comes to something with a property, the whole list comes to such
    things in the order of the items. -/
theorem outcome_mapM {α β : Type} {b : Backend} {f : α → Reading β} {P : α → β → Prop}
    {as : List α} (hf : ∀ a ∈ as, ∃ c, (f a).outcome b = .ok c ∧ P a c) :
    ∃ cs, (as.mapM f).outcome b = .ok cs ∧ List.Forall₂ P as cs := by
  induction as with
  | nil => exact ⟨[], rfl, .nil⟩
  | cons a rest ih =>
    obtain ⟨c, hc, hP⟩ := hf a List.mem_cons_self
    obtain ⟨cs, hcs, hrest⟩ := ih fun a' ha' => hf a' (List.mem_cons_of_mem a ha')
    refine ⟨c :: cs, ?_, .cons hP hrest⟩
    rw [List.mapM_cons, outcome_bind_of_ok hc, outcome_bind_of_ok hcs, outcome_pure]

/-- Steps that always come to something pass their states on as a fold does. -/
theorem outcome_foldlM {σ α : Type} {b : Backend} {f : σ → α → Reading σ}
    {g : σ → α → σ} (hf : ∀ state a, (f state a).outcome b = .ok (g state a))
    (as : List α) (start : σ) :
    (as.foldlM f start).outcome b = .ok (as.foldl g start) := by
  induction as generalizing start with
  | nil => rfl
  | cons a rest ih => rw [List.foldlM_cons, outcome_bind_of_ok (hf start a), ih, List.foldl_cons]

/-- A store in memory answers every read. -/
@[simp] theorem outcome_fetch (s : Store) (collection : String) (ids : List String) :
    (fetch collection ids).outcome (.ofStore s) = .ok (s.fetch collection ids) := rfl

@[simp] theorem outcome_scan (s : Store) (collection : String) (wanted : Scan) :
    (scan collection wanted).outcome (.ofStore s) = .ok (s.scan collection wanted) := rfl

end DocQuery.Reading
