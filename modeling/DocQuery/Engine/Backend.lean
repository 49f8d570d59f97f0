import DocQuery.Store.Basic

namespace DocQuery

/-- What an engine asks of a store. -/
structure Backend where
  /-- The names of all collections. -/
  list : Except Failure (List String)
  /-- The documents of the given ids, in the order of the ids, without those that do not exist. -/
  fetch (collection : String) (ids : List String) : Except Failure (List Document)
  /-- The documents that a scan finds. -/
  scan (collection : String) (scan : Scan) : Except Failure Found

/-- One read of a backend. -/
inductive Read where
  | list
  | fetch (collection : String) (ids : List String)
  | scan (collection : String) (scan : Scan)

namespace Backend

/-- The backend of a store in memory. None of its reads fails. -/
def ofStore (s : Store) : Backend where
  list := .ok s.names
  fetch collection ids := .ok (s.fetch collection ids)
  scan collection scan := .ok (s.scan collection scan)

/-- A backend some of whose reads fail, for the reasons given. -/
def withFaults (fault? : Read → Option String) (b : Backend) : Backend where
  list := match fault? .list with
    | some reason => .error (.backend reason)
    | none => b.list
  fetch collection ids := match fault? (.fetch collection ids) with
    | some reason => .error (.backend reason)
    | none => b.fetch collection ids
  scan collection scan := match fault? (.scan collection scan) with
    | some reason => .error (.backend reason)
    | none => b.scan collection scan

end Backend

/-- How a computation went: its result, and the reads it made, in order and with those that
    failed. -/
structure Run (α : Type) where
  result : Except Failure α
  reads : List Read

/-- Goes on after a computation, unless it failed. -/
def Run.andThen {α β : Type} (first : Run α) (next : α → Run β) : Run β :=
  match first.result with
  | .error failure => ⟨.error failure, first.reads⟩
  | .ok a =>
    let second := next a
    ⟨second.result, first.reads ++ second.reads⟩

private theorem Run.andThen_ok {α : Type} (first : Run α) :
    (first.andThen fun a => ⟨.ok a, []⟩) = first := by
  obtain ⟨result, reads⟩ := first
  cases result <;> simp [Run.andThen]

private theorem Run.andThen_andThen {α β γ : Type} (first : Run α) (next : α → Run β)
    (last : β → Run γ) :
    (first.andThen next).andThen last = first.andThen fun a => (next a).andThen last := by
  obtain ⟨result, reads⟩ := first
  cases result with
  | error failure => rfl
  | ok a =>
    rcases h : next a with ⟨second, more⟩
    cases second <;> simp [Run.andThen, h]

/-- A computation that reads from a backend and may fail. -/
structure Reading (α : Type) where
  run : Backend → Run α

namespace Reading

instance : Monad Reading where
  pure a := ⟨fun _ => ⟨.ok a, []⟩⟩
  bind x f := ⟨fun b => (x.run b).andThen fun a => (f a).run b⟩

instance : MonadLift (Except Failure) Reading where
  monadLift result := ⟨fun _ => ⟨result, []⟩⟩

theorem run_pure {α : Type} (a : α) (b : Backend) :
    (pure a : Reading α).run b = ⟨.ok a, []⟩ := rfl

theorem run_bind {α β : Type} (x : Reading α) (f : α → Reading β) (b : Backend) :
    (x >>= f).run b = (x.run b).andThen fun a => (f a).run b := rfl

/-- How steps are put together makes no difference. -/
instance : LawfulMonad Reading := LawfulMonad.mk' Reading
  (fun x => congrArg Reading.mk (funext fun b => Run.andThen_ok (x.run b)))
  (fun _ _ => rfl)
  (fun x f g => congrArg Reading.mk (funext fun b =>
    Run.andThen_andThen (x.run b) (fun a => (f a).run b) (fun a => (g a).run b)))

/-- Makes a read and takes its answer. -/
def read {α : Type} (r : Read) (answer : Backend → Except Failure α) : Reading α :=
  ⟨fun b => ⟨answer b, [r]⟩⟩

/-- Reads the names of all collections. -/
def list : Reading (List String) := read .list Backend.list

/-- Reads documents by their ids. -/
def fetch (collection : String) (ids : List String) : Reading (List Document) :=
  read (.fetch collection ids) fun b => b.fetch collection ids

/-- Reads what a scan finds. -/
def scan (collection : String) (scan : Scan) : Reading Found :=
  read (.scan collection scan) fun b => b.scan collection scan

end Reading

end DocQuery
