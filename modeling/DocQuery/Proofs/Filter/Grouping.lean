import DocQuery.Filter.Resolved
import DocQuery.Proofs.Entries
import DocQuery.Proofs.Steps

namespace DocQuery

namespace Clause

private theorem parseValue_isNull {key : String} {raw : RawValue} {value : Literal}
    (hvalue : parseValue key .isNull raw = .ok value) : ∃ b, value = .bool b := by
  simp only [parseValue, ↓reduceIte] at hvalue
  cases hbool : raw.literal.asBool with
  | none => simp [hbool] at hvalue
  | some b =>
    rw [hbool] at hvalue
    exact ⟨b, (Except.ok.inj hvalue).symm⟩

/-- A clause that was read from a key and passes the checks says whether a target is to exist, if it
    asks for one: only null tests may ask, and they are read with a truth value. -/
theorem asBool_isSome_of_parse {config : Config} {key : String} {raw : RawValue} {c : Clause}
    (hparse : parse key raw = .ok c) (hcheck : c.check config = .ok ())
    (hexists : c.path.isExistence) : c.value.asBool.isSome := by
  have hop : c.op = .isNull := Decidable.byContradiction fun hop => by
    rw [check, if_pos ⟨hexists, hop⟩] at hcheck
    cases hcheck
  unfold parse at hparse
  rw [bind_eq_ok_iff] at hparse
  obtain ⟨⟨group, rest⟩, -, hparse⟩ := hparse
  rw [bind_eq_ok_iff] at hparse
  obtain ⟨path, -, hparse⟩ := hparse
  rw [bind_eq_ok_iff] at hparse
  obtain ⟨value, hvalue, hparse⟩ := hparse
  cases hparse
  change (splitOperator rest).2 = .isNull at hop
  rw [hop] at hvalue
  obtain ⟨b, rfl⟩ := parseValue_isNull hvalue
  rfl

end Clause

namespace Filter

/-- A filter passes the checks if each of its clauses does. -/
theorem check_eq_ok_iff {config : Config} {f : Filter} :
    f.check config = .ok () ↔ ∀ c ∈ f.clauses, c.check config = .ok () := forM_eq_ok_iff

/-- Sorting clauses out by group loses none and adds none. -/
theorem mem_clauses_ofClauses {clauses : List Clause} {c : Clause} :
    c ∈ (ofClauses clauses).clauses ↔ c ∈ clauses := by
  simp only [Filter.clauses, ofClauses, List.mem_append, List.mem_filter, List.mem_flatMap,
    List.mem_map, Sorted.mem_ofList, List.mem_filterMap]
  constructor
  · rintro (⟨hc, -⟩ | ⟨_, ⟨_, -, rfl⟩, hc⟩)
    · exact hc
    · exact (List.mem_filter.mp hc).1
  · intro hc
    cases hgroup : c.group with
    | none => exact .inl ⟨hc, by rw [Option.isNone_none]⟩
    | some name =>
      refine .inr ⟨_, ⟨name, ⟨c, hc, hgroup⟩, rfl⟩, ?_⟩
      exact List.mem_filter.mpr ⟨hc, by simpa using hgroup⟩

/-- A filter made of clauses holds when every clause without a group does, and some clause of every
    group that a clause names. -/
theorem holds_ofClauses_iff {clauses : List Clause} {clauseHolds : Clause → Bool} :
    (ofClauses clauses).holds clauseHolds = true ↔
      (∀ c ∈ clauses, c.group = none → clauseHolds c) ∧
      ∀ name, (∃ c ∈ clauses, c.group = some name) →
        ∃ c ∈ clauses, c.group = some name ∧ clauseHolds c := by
  simp only [holds, ofClauses, Bool.and_eq_true, List.all_eq_true, List.mem_filter,
    Option.isNone_iff_eq_none, and_imp, List.mem_map, Sorted.mem_ofList, List.mem_filterMap]
  refine and_congr_right fun _ => ⟨fun hgroups name hname => ?_, fun hgroups g hg => ?_⟩
  · have hany := hgroups _ ⟨name, hname, rfl⟩
    obtain ⟨c, hc, hgroup⟩ := hname
    have hmem : c ∈ clauses.filter fun c => decide (c.group = some name) :=
      List.mem_filter.mpr ⟨hc, by simpa using hgroup⟩
    have hne : (clauses.filter fun c => decide (c.group = some name)).isEmpty = false := by
      simpa using List.ne_nil_of_mem hmem
    rw [hne, Bool.false_or, List.any_eq_true] at hany
    obtain ⟨found, hfound, hholds⟩ := hany
    obtain ⟨hfound, hsame⟩ := List.mem_filter.mp hfound
    exact ⟨found, hfound, by simpa using hsame, hholds⟩
  · obtain ⟨name, hname, rfl⟩ := hg
    obtain ⟨c, hc, hgroup, hholds⟩ := hgroups name hname
    rw [Bool.or_eq_true, List.any_eq_true]
    exact .inr ⟨c, List.mem_filter.mpr ⟨hc, by simpa using hgroup⟩, hholds⟩

/-- A group without members changes neither the clauses nor when the filter holds. -/
theorem clauses_withGroup (name : String) (f : Filter) :
    (f.withGroup name).clauses = f.clauses := by
  unfold withGroup
  split
  · rfl
  · next hnew =>
    obtain ⟨before, after, hgroups, hinsert⟩ :=
      Entries.insert_of_get?_none ([] : List Clause) (Option.not_isSome_iff_eq_none.mp hnew)
    simp only [clauses, hinsert]
    rw [hgroups]
    simp

@[inherit_doc clauses_withGroup]
theorem holds_withGroup (name : String) (f : Filter) (clauseHolds : Clause → Bool) :
    (f.withGroup name).holds clauseHolds = f.holds clauseHolds := by
  unfold withGroup
  split
  · rfl
  · next hnew =>
    obtain ⟨before, after, hgroups, hinsert⟩ :=
      Entries.insert_of_get?_none ([] : List Clause) (Option.not_isSome_iff_eq_none.mp hnew)
    simp only [holds, hinsert]
    rw [hgroups]
    simp

end Filter

end DocQuery
