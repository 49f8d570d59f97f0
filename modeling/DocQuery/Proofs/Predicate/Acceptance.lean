import DocQuery.Store.Evaluation

namespace DocQuery.Predicate

/-- The recursion over the parts of a conjunction asks each of them. -/
theorem acceptsAll_eq_all (d : Document) (parts : List Predicate) :
    acceptsAll d parts = parts.all (accepts d) := by
  induction parts with
  | nil => rfl
  | cons p rest ih => rw [acceptsAll, List.all_cons, ih]

theorem acceptsAny_eq_any (d : Document) (parts : List Predicate) :
    acceptsAny d parts = parts.any (accepts d) := by
  induction parts with
  | nil => rfl
  | cons p rest ih => rw [acceptsAny, List.any_cons, ih]

@[simp] theorem accepts_all (d : Document) (parts : List Predicate) :
    accepts d (.all parts) = parts.all (accepts d) := by
  rw [accepts, acceptsAll_eq_all]

@[simp] theorem accepts_any (d : Document) (parts : List Predicate) :
    accepts d (.any parts) = parts.any (accepts d) := by
  rw [accepts, acceptsAny_eq_any]

mutual

/-- A part that stands alone says what the conjunction or disjunction around it says, so simplifying
    keeps which documents are accepted. Empty conjunctions and disjunctions stay as they are. -/
theorem accepts_simplify_eq (d : Document) : ∀ p : Predicate, accepts d p.simplify = accepts d p
  | .test _ _ _ => rfl
  | .all [] | .any [] => rfl
  | .all [p] => by
    have hp := accepts_simplify_eq d p
    simp [simplify, hp]
  | .any [p] => by
    have hp := accepts_simplify_eq d p
    simp [simplify, hp]
  | .all (p :: q :: rest) => by
    have hparts := (accepts_simplifyEach_eq d (p :: q :: rest)).1
    simpa [simplify] using hparts
  | .any (p :: q :: rest) => by
    have hparts := (accepts_simplifyEach_eq d (p :: q :: rest)).2
    simpa [simplify] using hparts

/-- Parts that are simplified one by one say the same, joined in either way. -/
theorem accepts_simplifyEach_eq (d : Document) : ∀ parts : List Predicate,
    (simplifyEach parts).all (accepts d) = parts.all (accepts d) ∧
      (simplifyEach parts).any (accepts d) = parts.any (accepts d)
  | [] => ⟨rfl, rfl⟩
  | p :: rest => by
    have hp := accepts_simplify_eq d p
    obtain ⟨hall, hany⟩ := accepts_simplifyEach_eq d rest
    simp [simplifyEach, hp, hall, hany]

end

end DocQuery.Predicate
