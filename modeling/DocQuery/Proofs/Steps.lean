import Mathlib.Data.List.Forall2

namespace DocQuery

/-- A sequence of steps succeeds if each of them does. -/
theorem bind_eq_ok_iff {ε α β : Type} {x : Except ε α} {f : α → Except ε β} {b : β} :
    (x >>= f) = .ok b ↔ ∃ a, x = .ok a ∧ f a = .ok b := by
  cases x with
  | error e => simp [Bind.bind, Except.bind]
  | ok a => simp [Bind.bind, Except.bind]

theorem map_eq_ok_iff {ε α β : Type} {x : Except ε α} {f : α → β} {b : β} :
    x.map f = .ok b ↔ ∃ a, x = .ok a ∧ f a = b := by
  cases x with
  | error e => simp [Except.map]
  | ok a => simp [Except.map]

/-- Mapping a result does not change whether there is one. -/
theorem exists_map_eq_ok_iff {ε α β : Type} {x : Except ε α} {f : α → β} :
    (∃ b, x.map f = .ok b) ↔ ∃ a, x = .ok a := by
  simp only [map_eq_ok_iff]
  constructor
  · rintro ⟨_, a, ha, -⟩
    exact ⟨a, ha⟩
  · rintro ⟨a, ha⟩
    exact ⟨f a, a, ha, rfl⟩

/-- Two computations after each other succeed when both do. -/
theorem exists_both_eq_ok_iff {ε α β γ : Type} {x : Except ε α} {y : Except ε β}
    {f : α → β → γ} :
    (∃ c, (do return f (← x) (← y)) = Except.ok c) ↔ (∃ a, x = .ok a) ∧
      ∃ b, y = .ok b := by
  simp only [bind_eq_ok_iff, pure, Except.pure, Except.ok.injEq]
  constructor
  · rintro ⟨_, a, ha, b, hb, -⟩
    exact ⟨⟨a, ha⟩, b, hb⟩
  · rintro ⟨⟨a, ha⟩, b, hb⟩
    exact ⟨f a b, a, ha, b, hb, rfl⟩

/-- A check of a whole list passes when it passes for every item. -/
theorem forM_eq_ok_iff {ε α : Type} {check : α → Except ε Unit} {as : List α} :
    as.forM check = .ok () ↔ ∀ a ∈ as, check a = .ok () := by
  induction as with
  | nil => exact ⟨fun _ _ ha => absurd ha List.not_mem_nil, fun _ => rfl⟩
  | cons a rest ih =>
    change (check a >>= fun _ => rest.forM check) = .ok () ↔ _
    rw [bind_eq_ok_iff, List.forall_mem_cons, ← ih]
    exact ⟨fun ⟨_, ha, hrest⟩ => ⟨ha, hrest⟩,
      fun ⟨ha, hrest⟩ => ⟨(), ha, hrest⟩⟩

/-- A sequence of steps fails with the failure of its first step that does. -/
theorem bind_eq_error_iff {ε α β : Type} {x : Except ε α} {f : α → Except ε β} {e : ε} :
    (x >>= f) = .error e ↔ x = .error e ∨ ∃ a, x = .ok a ∧ f a = .error e := by
  cases x with
  | error e' => simp [Bind.bind, Except.bind]
  | ok a => simp [Bind.bind, Except.bind]

/-- Reshaping a result adds no failure. -/
theorem bind_pure_eq_error_iff {ε α β : Type} {x : Except ε α} {f : α → β} {e : ε} :
    (x >>= fun a => pure (f a)) = .error e ↔ x = .error e := by
  cases x with
  | error e' => simp [Bind.bind, Except.bind]
  | ok a => simp [Bind.bind, Except.bind, pure, Except.pure]

/-- What has no failure has a result. -/
theorem exists_eq_ok_iff {ε α : Type} {x : Except ε α} :
    (∃ a, x = .ok a) ↔ ∀ e, x ≠ .error e := by
  cases x with
  | error e => simp
  | ok a => simp

/-- Mapping failures leaves results as they are. -/
theorem mapError_eq_ok_iff {ε ε' α : Type} {x : Except ε α} {g : ε → ε'} {a : α} :
    x.mapError g = .ok a ↔ x = .ok a := by
  cases x with
  | error e => simp [Except.mapError]
  | ok b => simp [Except.mapError]

/-- A failure that was mapped comes from one that is mapped to it. -/
theorem mapError_eq_error_iff {ε ε' α : Type} {x : Except ε α} {g : ε → ε'} {e : ε'} :
    x.mapError g = .error e ↔ ∃ cause, g cause = e ∧ x = .error cause := by
  cases x with
  | error e => simp [Except.mapError]
  | ok b => simp [Except.mapError]

/-- A step for each item of a list gives the results in the order of the items. -/
theorem mapM_eq_ok_iff {ε α β : Type} {f : α → Except ε β} {as : List α} {bs : List β} :
    as.mapM f = .ok bs ↔ List.Forall₂ (fun a b => f a = .ok b) as bs := by
  induction as generalizing bs with
  | nil =>
    rw [List.forall₂_nil_left_iff, List.mapM_nil]
    exact ⟨fun hok => (Except.ok.inj hok).symm, fun hnil => hnil ▸ rfl⟩
  | cons a rest ih =>
    rw [List.mapM_cons, List.forall₂_cons_left_iff, bind_eq_ok_iff]
    refine exists_congr fun b => ?_
    simp only [bind_eq_ok_iff, ih, pure, Except.pure, Except.ok.injEq]
    constructor
    · rintro ⟨hb, others, hothers, rfl⟩
      exact ⟨others, hb, hothers, rfl⟩
    · rintro ⟨others, hb, hothers, rfl⟩
      exact ⟨hb, others, hothers, rfl⟩

/-- Whether a fault is that of the first item of a list that has one. -/
def IsFirstFault {ε α : Type} (fault : α → ε → Prop) (as : List α) (e : ε) : Prop :=
  ∃ before a after, as = before ++ a :: after ∧
    (∀ b ∈ before, ∀ e', ¬ fault b e') ∧ fault a e

section FirstFault

variable {ε α β σ : Type} {fault : α → ε → Prop} {e : ε}

theorem not_isFirstFault_nil : ¬ IsFirstFault fault [] e := by
  rintro ⟨before, a, after, hsplit, -⟩
  simp at hsplit

/-- A first fault is that of the first thing, or that of the rest if the first has none. -/
theorem isFirstFault_cons_iff {a : α} {rest : List α} :
    IsFirstFault fault (a :: rest) e ↔
      fault a e ∨ (∀ e', ¬ fault a e') ∧ IsFirstFault fault rest e := by
  constructor
  · rintro ⟨before, found, after, hsplit, hbefore, hfault⟩
    cases before with
    | nil =>
      obtain ⟨rfl, -⟩ := List.cons.inj hsplit
      exact .inl hfault
    | cons first before =>
      obtain ⟨rfl, rfl⟩ := List.cons.inj hsplit
      obtain ⟨hfirst, hbefore⟩ := List.forall_mem_cons.mp hbefore
      exact .inr ⟨hfirst, before, found, after, rfl, hbefore, hfault⟩
  · rintro (hfault | ⟨hnone, before, found, after, rfl, hbefore, hfault⟩)
    · exact ⟨[], a, rest, rfl, fun _ hb => absurd hb List.not_mem_nil, hfault⟩
    · exact ⟨a :: before, found, after, rfl,
        List.forall_mem_cons.mpr ⟨hnone, hbefore⟩, hfault⟩

theorem isFirstFault_append_iff {as bs : List α} :
    IsFirstFault fault (as ++ bs) e ↔
      IsFirstFault fault as e ∨ (∀ a ∈ as, ∀ e', ¬ fault a e') ∧
      IsFirstFault fault bs e := by
  induction as with
  | nil => simp [not_isFirstFault_nil]
  | cons a rest ih =>
    rw [List.cons_append, isFirstFault_cons_iff, isFirstFault_cons_iff, ih,
      List.forall_mem_cons, and_or_left, or_assoc, and_assoc]

/-- Things that are left out have no faults. -/
theorem isFirstFault_filter_iff {p : α → Bool} {as : List α} :
    IsFirstFault fault (as.filter p) e ↔
      IsFirstFault (fun a e => p a = true ∧ fault a e) as e := by
  induction as with
  | nil => exact iff_of_false not_isFirstFault_nil not_isFirstFault_nil
  | cons a rest ih =>
    rw [List.filter_cons, isFirstFault_cons_iff, ← ih]
    split
    · next hp => simp only [isFirstFault_cons_iff, hp, true_and]
    · next hp => simp [hp]

/-- Of lists one after the other, in the order of their keys, the one with the first key that has a
    fault in its list counts. -/
theorem isFirstFault_flatMap_iff {κ : Type} {before : κ → κ → Prop}
    (hasymm : ∀ k k', before k k' → ¬ before k' k) {keys : List κ}
    (hkeys : keys.Pairwise before) {members : κ → List α} :
    IsFirstFault fault (keys.flatMap members) e ↔
      ∃ k ∈ keys, IsFirstFault fault (members k) e ∧
        ∀ k' ∈ keys, before k' k → ∀ a ∈ members k', ∀ e', ¬ fault a e' := by
  induction hkeys with
  | nil => simp [not_isFirstFault_nil]
  | @cons k rest hk _ ih =>
    rw [List.flatMap_cons, isFirstFault_append_iff, ih]
    constructor
    · rintro (hfirst | ⟨hnone, k', hk', hfirst, hothers⟩)
      · refine ⟨k, List.mem_cons_self, hfirst, fun k' hk' hbefore => absurd hbefore ?_⟩
        rcases List.mem_cons.mp hk' with rfl | hk'
        · exact fun hself => hasymm _ _ hself hself
        · exact hasymm _ _ (hk k' hk')
      · refine ⟨k', List.mem_cons_of_mem k hk', hfirst, ?_⟩
        exact List.forall_mem_cons.mpr ⟨fun _ => hnone, hothers⟩
    · rintro ⟨k', hk', hfirst, hothers⟩
      obtain ⟨hself, hothers⟩ := List.forall_mem_cons.mp hothers
      rcases List.mem_cons.mp hk' with rfl | hk'
      · exact .inl hfirst
      · exact .inr ⟨hself (hk k' hk'), k', hk', hfirst, hothers⟩

/-- Where an item has a fault, there is a first one. -/
theorem exists_isFirstFault_iff {as : List α} :
    (∃ e, IsFirstFault fault as e) ↔ ∃ a ∈ as, ∃ e, fault a e := by
  constructor
  · rintro ⟨e, before, a, after, rfl, -, hfault⟩
    exact ⟨a, List.mem_append_right before List.mem_cons_self, e, hfault⟩
  · rintro ⟨a, ha, e, hfault⟩
    induction as with
    | nil => cases ha
    | cons first rest ih =>
      simp only [isFirstFault_cons_iff]
      by_cases hfirst : ∃ e', fault first e'
      · obtain ⟨e', hfirst⟩ := hfirst
        exact ⟨e', .inl hfirst⟩
      · have hrest : a ∈ rest := by
          rcases List.mem_cons.mp ha with rfl | hrest
          · exact absurd ⟨e, hfault⟩ hfirst
          · exact hrest
        obtain ⟨e', hfound⟩ := ih hrest
        exact ⟨e', .inr ⟨not_exists.mp hfirst, hfound⟩⟩

/-- Wording a fault otherwise does not change which one is first. -/
theorem isFirstFault_wording_iff {ε' : Type} {g : ε → ε'} {as : List α} {e' : ε'} :
    IsFirstFault (fun a e' => ∃ e, g e = e' ∧ fault a e) as e' ↔
      ∃ e, g e = e' ∧ IsFirstFault fault as e := by
  have hnone : ∀ a, (∀ e', ¬ ∃ e, g e = e' ∧ fault a e) ↔ ∀ e, ¬ fault a e := by
    intro a
    constructor
    · exact fun hnone e hfault => hnone (g e) ⟨e, rfl, hfault⟩
    · rintro hnone e' ⟨e, -, hfault⟩
      exact hnone e hfault
  simp only [IsFirstFault, hnone]
  constructor
  · rintro ⟨before, a, after, rfl, hbefore, e, hg, hfault⟩
    exact ⟨e, hg, before, a, after, rfl, hbefore, hfault⟩
  · rintro ⟨e, hg, before, a, after, rfl, hbefore, hfault⟩
    exact ⟨before, a, after, rfl, hbefore, e, hg, hfault⟩

/-- A step for each item of a list fails with the first that fails. -/
theorem mapM_eq_error_iff {f : α → Except ε β} {as : List α} :
    as.mapM f = .error e ↔ IsFirstFault (fun a e => f a = .error e) as e := by
  induction as with
  | nil => exact iff_of_false (fun herror => by cases herror) not_isFirstFault_nil
  | cons a rest ih =>
    rw [List.mapM_cons, bind_eq_error_iff, isFirstFault_cons_iff, ← ih, ← exists_eq_ok_iff]
    simp only [bind_pure_eq_error_iff, exists_and_right]

/-- When steps pass a state on but fail regardless of it, the first that fails counts. -/
theorem foldlM_eq_error_iff {f : σ → α → Except ε σ}
    (hf : ∀ state a e, f state a = .error e ↔ fault a e) {as : List α} {start : σ} :
    as.foldlM f start = .error e ↔ IsFirstFault fault as e := by
  induction as generalizing start with
  | nil => exact iff_of_false (fun herror => by cases herror) not_isFirstFault_nil
  | cons a rest ih =>
    rw [List.foldlM_cons, bind_eq_error_iff, isFirstFault_cons_iff, hf]
    refine or_congr_right ?_
    have hnone : (∃ next, f start a = .ok next) ↔ ∀ e', ¬ fault a e' := by
      simp only [exists_eq_ok_iff, ne_eq, hf]
    simp only [ih, exists_and_right, hnone]

/-- The first item of a list that a check refuses counts. -/
theorem forM_eq_error_iff {check : α → Except ε Unit} {as : List α} :
    as.forM check = .error e ↔ IsFirstFault (fun a e => check a = .error e) as e := by
  induction as with
  | nil => exact iff_of_false (fun herror => by cases herror) not_isFirstFault_nil
  | cons a rest ih =>
    change (check a >>= fun _ => rest.forM check) = .error e ↔ _
    rw [bind_eq_error_iff, isFirstFault_cons_iff, ih, ← exists_eq_ok_iff]
    simp only [exists_and_right]

end FirstFault

end DocQuery
