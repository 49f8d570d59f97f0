import DocQuery.Proofs.Filter.Grouping

namespace DocQuery

namespace Clause

/-- Why a clause may not be resolved: it asks more of a target than whether there is one, or it
    needs more look-ups than are allowed. -/
inductive Offends (config : Config) (c : Clause) : Failure → Prop where
  | existence (existence : c.path.isExistence) (operator : c.op ≠ .isNull) :
      Offends config c (.malformed (.existenceOperator c.path.text c.op))
  | depth (operator : c.path.isExistence → c.op = .isNull)
      (deep : config.maxFilterDepth < c.path.hops) :
      Offends config c (.tooDeep c.path.text c.path.hops config.maxFilterDepth)

variable {config : Config} {c : Clause} {failure : Failure}

/-- The check of a clause fails exactly for an offence of it. -/
theorem check_eq_error_iff : c.check config = .error failure ↔ c.Offends config failure := by
  unfold check
  constructor
  · intro herror
    split at herror
    · next hexists =>
      cases herror
      exact .existence hexists.1 hexists.2
    · next hnot =>
      split at herror
      · next hdeep =>
        cases herror
        exact .depth (fun hexists => Decidable.not_not.mp fun hop => hnot ⟨hexists, hop⟩) hdeep
      · cases herror
  · intro hoffends
    cases hoffends with
    | existence hexists hop => rw [if_pos ⟨hexists, hop⟩]
    | depth hop hdeep => rw [if_neg fun hexists => hexists.2 (hop hexists.1), if_pos hdeep]

/-- A clause offends by a path with too many look-ups, or by asking for the existence of a target
    with another operator than `isnull`. -/
theorem exists_offends_iff : (∃ failure, c.Offends config failure) ↔
    config.maxFilterDepth < c.path.hops ∨ c.path.isExistence ∧ c.op ≠ .isNull := by
  constructor
  · rintro ⟨failure, hoffends⟩
    cases hoffends with
    | existence hexists hop => exact .inr ⟨hexists, hop⟩
    | depth hop hdeep => exact .inl hdeep
  · intro hoffends
    by_cases hexists : c.path.isExistence ∧ c.op ≠ .isNull
    · exact ⟨_, .existence hexists.1 hexists.2⟩
    · refine ⟨_, .depth (fun hpath => ?_) (hoffends.resolve_right hexists)⟩
      exact Decidable.not_not.mp fun hop => hexists ⟨hpath, hop⟩

/-- Every offence is a fault of the request. -/
theorem Offends.isRequestFault (hoffends : c.Offends config failure) :
    failure.isRequestFault = true := by
  cases hoffends <;> rfl

end Clause

namespace Filter

/-- Whether a failure is that of the first clause that may not be resolved: no clause of its group
    before it has one, and none of a group with a smaller name, where no name is smaller than
    any. -/
def IsFirstOffence (config : Config) (clauses : List Clause) (failure : Failure) : Prop :=
  ∃ before c after, clauses = before ++ c :: after ∧ c.Offends config failure ∧
    (∀ b ∈ before, b.group = c.group → ∀ other, ¬ b.Offends config other) ∧
    ∀ b ∈ clauses, b.group < c.group → ∀ other, ¬ b.Offends config other

/-- The groups of clauses in their order, that of the clauses without a name first. -/
def groupsOf (clauses : List Clause) : List (Option String) :=
  none :: (Sorted.ofList (clauses.filterMap Clause.group)).map some

/-- The clauses of a filter come group by group, those without a group first. -/
theorem clauses_ofClauses (clauses : List Clause) : (ofClauses clauses).clauses =
    (groupsOf clauses).flatMap fun group => clauses.filter fun c => c.group = group := by
  have hnone : (fun c : Clause => c.group.isNone) = fun c => decide (c.group = none) := by
    funext c
    cases c.group <;> rfl
  simp only [Filter.clauses, ofClauses, groupsOf, hnone, List.flatMap_cons, List.flatMap_map]

private theorem mem_groupsOf {clauses : List Clause} {c : Clause} (hc : c ∈ clauses) :
    c.group ∈ groupsOf clauses := by
  unfold groupsOf
  cases hgroup : c.group with
  | none => exact List.mem_cons_self
  | some name =>
    refine List.mem_cons_of_mem _ (List.mem_map_of_mem (Sorted.mem_ofList.mpr ?_))
    exact List.mem_filterMap.mpr ⟨c, hc, hgroup⟩

private theorem pairwise_groupsOf (clauses : List Clause) :
    (groupsOf clauses).Pairwise (· < ·) := by
  refine .cons (fun group hgroup => ?_) ?_
  · obtain ⟨name, -, rfl⟩ := List.mem_map.mp hgroup
    exact trivial
  · refine List.pairwise_map.mpr ((Sorted.pairwise_ofList _).imp fun {name other} hlt => ?_)
    have hname : name < other := compareOfLessAndEq_eq_lt.mp hlt
    exact hname

private theorem lt_asymm_group {group group' : Option String} (hlt : group < group') :
    ¬ group' < group := by
  cases group with
  | none =>
    cases group' with
    | none => exact fun h => h
    | some name => exact fun h => h
  | some name =>
    cases group' with
    | none => exact absurd hlt fun h => h
    | some name' => exact String.lt_asymm hlt

variable {config : Config} {clauses : List Clause} {failure : Failure}

/-- A filter made of clauses is refused for the first clause that may not be resolved. -/
theorem check_ofClauses_eq_error_iff :
    (ofClauses clauses).check config = .error failure ↔
      IsFirstOffence config clauses failure := by
  unfold check IsFirstOffence
  rw [forM_eq_error_iff, clauses_ofClauses]
  simp only [Clause.check_eq_error_iff]
  rw [isFirstFault_flatMap_iff (fun _ _ => lt_asymm_group) (pairwise_groupsOf clauses)]
  constructor
  · rintro ⟨group, hgroup, hfirst, hothers⟩
    obtain ⟨before, c, after, hsplit, hbefore, hc, hoffends⟩ :=
      isFirstFault_filter_iff.mp hfirst
    obtain rfl := of_decide_eq_true hc
    refine ⟨before, c, after, hsplit, hoffends, fun b hb hsame other hoffends' => ?_,
      fun b hb hlt => hothers b.group (mem_groupsOf hb) hlt b ?_⟩
    · exact hbefore b hb other ⟨decide_eq_true hsame, hoffends'⟩
    · exact List.mem_filter.mpr ⟨hb, decide_eq_true rfl⟩
  · rintro ⟨before, c, after, hsplit, hoffends, hbefore, hothers⟩
    have hc : c ∈ clauses := hsplit ▸ List.mem_append_right before List.mem_cons_self
    refine ⟨c.group, mem_groupsOf hc, isFirstFault_filter_iff.mpr ?_,
      fun group _ hlt b hfilter => ?_⟩
    · refine ⟨before, c, after, hsplit, fun b hb other hoffends' => ?_,
        decide_eq_true rfl, hoffends⟩
      exact hbefore b hb (of_decide_eq_true hoffends'.1) other hoffends'.2
    · obtain ⟨hb, hsame⟩ := List.mem_filter.mp hfilter
      obtain rfl := of_decide_eq_true hsame
      exact hothers b hb hlt

/-- If any clause offends, one offence is the first. -/
theorem exists_isFirstOffence_iff :
    (∃ failure, IsFirstOffence config clauses failure) ↔ ∃ c ∈ clauses, ∃ failure,
      c.Offends config failure := by
  simp only [← check_ofClauses_eq_error_iff, check, forM_eq_error_iff, exists_isFirstFault_iff,
    mem_clauses_ofClauses, Clause.check_eq_error_iff]

end Filter

end DocQuery
