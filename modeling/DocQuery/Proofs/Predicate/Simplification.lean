import DocQuery.Proofs.Predicate.Acceptance

namespace DocQuery.Predicate

mutual

/-- Whether no conjunction and no disjunction in a predicate has exactly one part, at any depth.
    Those without parts may stand in it. -/
def IsSimple : Predicate → Prop
  | .all parts | .any parts => parts.length ≠ 1 ∧ AreSimple parts
  | .test _ _ _ => True

@[inherit_doc IsSimple]
def AreSimple : List Predicate → Prop
  | [] => True
  | p :: rest => IsSimple p ∧ AreSimple rest

end

/-- Taking the right predicate into a conjunction changes nothing of what both accept. -/
theorem accepts_and (d : Document) (p q : Predicate) :
    accepts d (p.and q) = (accepts d p && accepts d q) := by
  cases p with
  | all parts => simp [Predicate.and]
  | any _ | test _ _ _ => simp [Predicate.and]

/-- Taking the right predicate into a disjunction changes nothing of what either accepts. -/
theorem accepts_or (d : Document) (p q : Predicate) :
    accepts d (p.or q) = (accepts d p || accepts d q) := by
  cases p with
  | any parts => simp [Predicate.or]
  | all _ | test _ _ _ => simp [Predicate.or]

theorem length_simplifyEach (parts : List Predicate) :
    (simplifyEach parts).length = parts.length := by
  induction parts with
  | nil => rfl
  | cons p rest ih => rw [simplifyEach, List.length_cons, List.length_cons, ih]

/-- Of parts that are more or fewer than one each is simplified in its place. -/
theorem simplify_of_length_ne_one {parts : List Predicate} (hlength : parts.length ≠ 1) :
    simplify (.all parts) = .all (simplifyEach parts) ∧ simplify (.any parts) =
      .any (simplifyEach parts) := by
  match parts with
  | [] => exact ⟨rfl, rfl⟩
  | [_] => exact absurd rfl hlength
  | _ :: _ :: _ => exact ⟨rfl, rfl⟩

mutual

/-- A part that stands alone takes the place of the predicate around it, and so does what it is
    simplified to. Where there are more parts or none, their number stays. -/
theorem isSimple_simplify : ∀ p : Predicate, p.simplify.IsSimple
  | .test _ _ _ => trivial
  | .all [] | .any [] => ⟨Nat.zero_ne_one, trivial⟩
  | .all [p] | .any [p] => isSimple_simplify p
  | .all (p :: q :: rest) | .any (p :: q :: rest) => by
    refine ⟨?_, areSimple_simplifyEach (p :: q :: rest)⟩
    rw [length_simplifyEach, List.length_cons, List.length_cons]
    omega

theorem areSimple_simplifyEach : ∀ parts : List Predicate, AreSimple (simplifyEach parts)
  | [] => trivial
  | p :: rest => ⟨isSimple_simplify p, areSimple_simplifyEach rest⟩

end

mutual

/-- There is nothing left to simplify in a simple predicate. -/
theorem IsSimple.simplify_eq : ∀ {p : Predicate}, p.IsSimple → p.simplify = p
  | .test _ _ _, _ => rfl
  | .all _, ⟨hlength, hparts⟩ => by
    rw [(simplify_of_length_ne_one hlength).1, AreSimple.simplifyEach_eq hparts]
  | .any _, ⟨hlength, hparts⟩ => by
    rw [(simplify_of_length_ne_one hlength).2, AreSimple.simplifyEach_eq hparts]

theorem AreSimple.simplifyEach_eq :
    ∀ {parts : List Predicate}, AreSimple parts → simplifyEach parts = parts
  | [], _ => rfl
  | _ :: _, ⟨hp, hrest⟩ => by
    rw [simplifyEach, IsSimple.simplify_eq hp, AreSimple.simplifyEach_eq hrest]

end

/-- The predicates that simplifying leaves as they are. -/
theorem simplify_eq_self_iff {p : Predicate} : p.simplify = p ↔ p.IsSimple :=
  ⟨fun hsame => hsame ▸ isSimple_simplify p, IsSimple.simplify_eq⟩

/-- Joining predicates accepts the documents that both or one of them accept. Simplifying accepts
    the same documents as before, leaves no conjunction or disjunction of one part at any depth, and
    does all there is to do at once. -/
theorem combined_and_simplified_keep_meaning (p q : Predicate) :
    (∀ d, accepts d (p.and q) = (accepts d p && accepts d q)) ∧
    (∀ d, accepts d (p.or q) = (accepts d p || accepts d q)) ∧
    (∀ d, accepts d p.simplify = accepts d p) ∧
    p.simplify.IsSimple ∧ p.simplify.simplify = p.simplify := by
  have hsimple := isSimple_simplify p
  exact ⟨fun d => accepts_and d p q, fun d => accepts_or d p q, fun d => accepts_simplify_eq d p,
    hsimple, simplify_eq_self_iff.mpr hsimple⟩

/-- A disjunction of one part inside a conjunction of one part is the part itself, and a disjunction
    without parts stays. -/
example : simplify (.all [.any [.test "a" .eq (.text "1")]]) = .test "a" .eq (.text "1") ∧
    simplify (.all [.any [.any []]]) = .any [] := ⟨rfl, rfl⟩

end DocQuery.Predicate
