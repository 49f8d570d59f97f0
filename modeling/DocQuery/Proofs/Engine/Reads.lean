import DocQuery.Proofs.Engine.Outcome

namespace DocQuery.Reading

variable {α β : Type}

/-- The reads that a computation makes on a backend, those that fail included. -/
def reads (x : Reading α) (b : Backend) : List Read := (x.run b).reads

@[simp] theorem reads_pure (a : α) (b : Backend) : (pure a : Reading α).reads b = [] := rfl

@[simp] theorem reads_lift (result : Except Failure α) (b : Backend) :
    (liftM result : Reading α).reads b = [] := rfl

/-- A step that comes to something is followed by the reads of the rest. -/
theorem reads_bind_of_ok {x : Reading α} {f : α → Reading β} {b : Backend} {a : α}
    (hx : x.outcome b = .ok a) : (x >>= f).reads b = x.reads b ++ (f a).reads b := by
  unfold outcome at hx
  simp only [reads, run_bind, Run.andThen, hx]

/-- Nothing follows a step that fails. -/
theorem reads_bind_of_error {x : Reading α} {f : α → Reading β} {b : Backend}
    {failure : Failure} (hx : x.outcome b = .error failure) : (x >>= f).reads b = x.reads b := by
  unfold outcome at hx
  simp only [reads, run_bind, Run.andThen, hx]

@[inherit_doc reads_bind_of_error]
theorem outcome_bind_of_error {x : Reading α} {f : α → Reading β} {b : Backend}
    {failure : Failure} (hx : x.outcome b = .error failure) :
    (x >>= f).outcome b = .error failure := by
  rw [outcome_bind, hx]
  rfl

/-- Reshaping what a computation comes to reads nothing more. -/
theorem reads_bind_pure (x : Reading α) (f : α → β) (b : Backend) :
    (x >>= fun a => pure (f a)).reads b = x.reads b := by
  simp only [reads, run_bind, run_pure, Run.andThen]
  cases (x.run b).result with
  | error _ => rfl
  | ok _ => exact List.append_nil _

/-- Steps that always come to something, and read the same whatever state they are passed, read in
    turn. -/
theorem reads_foldlM {σ : Type} {b : Backend} {f : σ → α → Reading σ} {r : α → List Read}
    (hf : ∀ state a, ∃ next, (f state a).outcome b = .ok next)
    (hr : ∀ state a, (f state a).reads b = r a) (as : List α) (start : σ) :
    (as.foldlM f start).reads b = as.flatMap r := by
  induction as generalizing start with
  | nil => rfl
  | cons a rest ih =>
    obtain ⟨next, hnext⟩ := hf start a
    rw [List.foldlM_cons, reads_bind_of_ok hnext, hr, ih, List.flatMap_cons]

end DocQuery.Reading
