import Mathlib.Data.List.Permutation
import DocQuery.Proofs.Query.Params

namespace DocQuery.Params

/-- What pairs give for a key, which is the value of the last pair that has it. -/
def given? {α : Type} (read : String → Except RequestError α) (key : ReservedKey)
    (pairs : List (String × String)) : Option α :=
  (last? key pairs).bind fun raw => (read raw).toOption

/-- The direction that a pair turns to. -/
def turn? (pair : String × String) : Option Direction :=
  match ReservedKey.ofWord? pair.1 with
  | some .sort => (parseSort pair.2).toOption.bind Prod.snd
  | some .order => (Direction.parse pair.2).toOption
  | _ => none

/-- What pairs give, each member by itself. -/
def given (pairs : List (String × String)) : Params where
  clauses := (unreserved pairs).filterMap fun pair => (Clause.parse pair.1 (.text pair.2)).toOption
  chains := (pairs.filter fun pair => pair.1 = ReservedKey.populate.word).flatMap fun pair =>
    (Chain.parseList pair.2).toOption.getD []
  select := (given? parseSelect .select pairs).join
  sort := (given? parseSort .sort pairs).map Prod.fst
  direction := (pairs.filterMap turn?).getLast?
  limit := given? (parseCount .limit) .limit pairs
  offset := given? (parseCount .offset) .offset pairs
  page := given? (parseCount .page) .page pairs
  count := given? parseFlag .count pairs

section Concat

variable {pairs : List (String × String)} {p : Params}

private theorem given?_concat {α : Type} (read : String → Except RequestError α)
    (wanted : ReservedKey) (pair : String × String) : given? read wanted (pairs ++ [pair]) =
      if pair.1 = wanted.word then (read pair.2).toOption else given? read wanted pairs := by
  unfold given?
  rw [last?_concat]
  split <;> rfl

/-- One more value is given for the member of its key, and for no other. -/
theorem given_concat_reserved {key : ReservedKey} {raw : String}
    (hok : (given pairs).assign key raw = .ok p) :
    given (pairs ++ [(key.word, raw)]) = p := by
  have hfree := @unreserved_concat_reserved pairs (key.word, raw) key rfl
  have hword : ReservedKey.ofWord? key.word = some key := ReservedKey.ofWord?_eq_some_iff.mpr rfl
  cases key with
  | page =>
    obtain ⟨n, hn, hp⟩ := bind_eq_ok_iff.mp hok
    split at hp
    · cases hp
    · cases hp
      simp [given, hfree, given?_concat, ReservedKey.word_inj, turn?, hword, hn, Except.toOption]
  | populate | select | sort | order | limit | offset | count =>
    obtain ⟨value, hvalue, hp⟩ := bind_eq_ok_iff.mp hok
    cases hp
    simp [given, hfree, given?_concat, ReservedKey.word_inj, turn?, hword, hvalue, Except.toOption]

private theorem given_concat_clause {pair : String × String}
    (hfree : ∀ key : ReservedKey, pair.1 ≠ key.word)
    (hok : (given pairs).addClause pair.1 (.text pair.2) = .ok p) :
    given (pairs ++ [pair]) = p := by
  have hclause := unreserved_concat_clause pairs hfree
  have hword := ReservedKey.ofWord?_eq_none_iff.mpr hfree
  obtain ⟨c, hc, hp⟩ := bind_eq_ok_iff.mp hok
  cases hp
  simp [given, hclause, given?_concat, hfree, turn?, hword, hc, Except.toOption]

end Concat

/-- Pairs that are read are read as what they give. -/
theorem eq_given_of_parse {pairs : List (String × String)} {p : Params}
    (hok : parse pairs = .ok p) :
    p = given pairs := by
  induction pairs using List.reverseRecOn generalizing p with
  | nil =>
    cases hok
    rfl
  | append_singleton pairs pair ih =>
    obtain ⟨before, hbefore, hadd⟩ := parse_concat_eq_ok_iff.mp hok
    obtain rfl := ih hbefore
    obtain ⟨word, raw⟩ := pair
    unfold addPair at hadd
    split at hadd
    · next key hword =>
      obtain rfl := ReservedKey.ofWord?_eq_some_iff.mp hword
      exact (given_concat_reserved hadd).symm
    · next hword =>
      exact (given_concat_clause (ReservedKey.ofWord?_eq_none_iff.mp hword) hadd).symm

section Distinct

variable {pairs pairs' : List (String × String)}

/-- Of pairs with distinct keys, one at most has a given key. -/
theorem filter_key_perm (hkeys : (pairs.map Prod.fst).Nodup) (hperm : pairs.Perm pairs')
    (word : String) :
    (pairs.filter fun pair => pair.1 = word) = pairs'.filter fun pair => pair.1 = word := by
  have hfilter : (pairs.filter fun pair => pair.1 = word).Perm
      (pairs'.filter fun pair => pair.1 = word) :=
    hperm.filter _
  have hnodup : ((pairs.filter fun pair => pair.1 = word).map Prod.fst).Nodup :=
    hkeys.sublist (List.filter_sublist.map Prod.fst)
  have hword : ∀ pair ∈ pairs.filter fun pair => pair.1 = word, pair.1 = word := by
    intro pair hpair
    simpa using (List.mem_filter.mp hpair).2
  revert hfilter hnodup hword
  generalize pairs.filter _ = these, pairs'.filter _ = those
  intro hfilter hnodup hword
  match these with
  | [] => exact hfilter.nil_eq
  | [pair] => exact hfilter.singleton_eq
  | first :: second :: rest =>
    have hsame : first.1 = second.1 := (hword first (by simp)).trans (hword second (by simp)).symm
    simp [hsame] at hnodup

/-- Where keys are distinct, their order does not matter to what is given under one of them. -/
theorem given?_perm {α : Type} (hkeys : (pairs.map Prod.fst).Nodup) (hperm : pairs.Perm pairs')
    (read : String → Except RequestError α) (key : ReservedKey) :
    given? read key pairs = given? read key pairs' := by
  unfold given? last?
  rw [filter_key_perm hkeys hperm]

end Distinct

/-- Whether of two pairs the first asks for the descending direction, by a hyphen at the sort field,
    and the second for the ascending one. -/
structure Opposed (sorting ordering : String × String) : Prop where
  sort : sorting.1 = ReservedKey.sort.word
  hyphen : ∃ field, Text.trim sorting.2 = "-" ++ field
  order : ordering.1 = ReservedKey.order.word
  ascending : Text.asciiLowercase ordering.2 = Direction.ascending.word

section Turn

variable {pair : String × String}

private theorem turn?_sort (hkey : pair.1 = ReservedKey.sort.word)
    (hsound : ∀ cause, ¬ Fault pair cause) :
    turn? pair = some .descending ∧ (∃ field, Text.trim pair.2 = "-" ++ field) ∨
      turn? pair = none ∧ ¬ ∃ field, Text.trim pair.2 = "-" ++ field := by
  obtain ⟨word, raw⟩ := pair
  subst hkey
  have hnonempty : Text.trim raw ≠ "" ∧ Text.trim raw ≠ "-" :=
    not_or.mp fun hempty => hsound _ (.reserved rfl (.field hempty))
  have hturn : turn? (ReservedKey.sort.word, raw) = (parseSort raw).toOption.bind Prod.snd := rfl
  rw [hturn, parseSort]
  simp only [← Text.dropStart?_eq_some_iff]
  cases hstart : Text.dropStart? "-" (Text.trim raw) with
  | some field =>
    have hfield : field ≠ "" := by
      rintro rfl
      exact hnonempty.2 (Text.dropStart?_eq_some_iff.mp hstart)
    simp [hfield, Except.toOption]
  | none => simp [hnonempty.1, Except.toOption]

private theorem turn?_order (hkey : pair.1 = ReservedKey.order.word)
    (hsound : ∀ cause, ¬ Fault pair cause) :
    turn? pair = some .ascending ∧ Text.asciiLowercase pair.2 = Direction.ascending.word ∨
      turn? pair = some .descending ∧
      Text.asciiLowercase pair.2 ≠ Direction.ascending.word := by
  obtain ⟨word, raw⟩ := pair
  subst hkey
  have hknown : Text.asciiLowercase raw ∈ ["asc", "desc"] :=
    not_not.mp fun hunknown => hsound _ (.reserved rfl (.direction hunknown))
  have hturn : turn? (ReservedKey.order.word, raw) = (Direction.parse raw).toOption := rfl
  rw [hturn, Direction.parse]
  by_cases hasc : Text.asciiLowercase raw = Direction.ascending.word
  · exact .inl ⟨by rw [if_pos hasc]; rfl, hasc⟩
  · have hdesc : Text.asciiLowercase raw = Direction.descending.word :=
      (List.mem_pair.mp hknown).resolve_left hasc
    exact .inr ⟨by rw [if_neg hasc, if_pos hdesc]; rfl, hasc⟩

private theorem turn?_other (hsort : pair.1 ≠ ReservedKey.sort.word)
    (horder : pair.1 ≠ ReservedKey.order.word) :
    turn? pair = none := by
  unfold turn?
  split
  · next hword => exact absurd (ReservedKey.ofWord?_eq_some_iff.mp hword) hsort
  · next hword => exact absurd (ReservedKey.ofWord?_eq_some_iff.mp hword) horder
  · rfl

end Turn

section Swap

variable {sorting ordering : String × String}

private theorem getLast?_turns_swap (hsort : sorting.1 = ReservedKey.sort.word)
    (horder : ordering.1 = ReservedKey.order.word)
    (hsound : ∀ pair ∈ [sorting, ordering], ∀ cause, ¬ Fault pair cause) :
    ([sorting, ordering].filterMap turn?).getLast? =
      ([ordering, sorting].filterMap turn?).getLast? ↔
      ¬ Opposed sorting ordering := by
  have hopposed : Opposed sorting ordering ↔ (∃ field, Text.trim sorting.2 = "-" ++ field) ∧
      Text.asciiLowercase ordering.2 = Direction.ascending.word :=
    ⟨fun h => ⟨h.hyphen, h.ascending⟩, fun h => ⟨hsort, h.1, horder, h.2⟩⟩
  rw [hopposed]
  rcases turn?_sort hsort (hsound sorting (by simp)) with ⟨hs, hhyphen⟩ | ⟨hs, hhyphen⟩ <;>
    rcases turn?_order horder (hsound ordering (by simp)) with ⟨ho, hasc⟩ | ⟨ho, hasc⟩ <;>
    simp [hs, ho, hhyphen, hasc]

private theorem opposed_sublist_swap (hsort : sorting.1 = ReservedKey.sort.word)
    (horder : ordering.1 = ReservedKey.order.word) :
    (∀ s o, Opposed s o →
      ([s, o].Sublist [sorting, ordering] ↔ [s, o].Sublist [ordering, sorting])) ↔
      ¬ Opposed sorting ordering := by
  have hne : ReservedKey.sort.word ≠ ReservedKey.order.word := by decide
  constructor
  · intro hall hopposed
    have hswap := ((hall sorting ordering hopposed).mp (List.Sublist.refl _)).eq_of_length rfl
    rw [List.cons.injEq] at hswap
    exact hne (hsort.symm.trans (hswap.1 ▸ horder))
  · intro hnot s o hopposed
    refine iff_of_false (fun hsublist => ?_) fun hsublist => ?_
    · cases hsublist.eq_of_length rfl
      exact hnot hopposed
    · cases hsublist.eq_of_length rfl
      exact hne (hopposed.sort.symm.trans horder)

end Swap

/-- Of pairs that turn the direction, the last one counts: those in another order turn to the same
    exactly if opposed pairs stay in the order they have. -/
theorem getLast?_turns_perm {these those : List (String × String)} (hperm : these.Perm those)
    (hkeys : (these.map Prod.fst).Nodup)
    (honly : ∀ pair ∈ these, pair.1 = ReservedKey.sort.word ∨ pair.1 = ReservedKey.order.word)
    (hsound : ∀ pair ∈ these, ∀ cause, ¬ Fault pair cause) :
    (these.filterMap turn?).getLast? = (those.filterMap turn?).getLast? ↔
      ∀ s o, Opposed s o → ([s, o].Sublist these ↔ [s, o].Sublist those) := by
  match these with
  | [] =>
    obtain rfl := hperm.nil_eq
    exact iff_of_true rfl fun _ _ _ => Iff.rfl
  | [pair] =>
    obtain rfl := hperm.singleton_eq
    exact iff_of_true rfl fun _ _ _ => Iff.rfl
  | [first, second] =>
    rcases List.pair_perm.mp hperm with rfl | rfl
    · exact iff_of_true rfl fun _ _ _ => Iff.rfl
    · have hdistinct : first.1 ≠ second.1 := by simpa using hkeys
      rcases honly first (by simp) with hfirst | hfirst <;> rcases honly second (by simp) with
        hsecond | hsecond
      · exact absurd (hfirst.trans hsecond.symm) hdistinct
      · rw [getLast?_turns_swap hfirst hsecond hsound, opposed_sublist_swap hfirst hsecond]
      · have hsound' : ∀ pair ∈ [second, first], ∀ cause, ¬ Fault pair cause :=
          fun pair hpair => hsound pair (hperm.mem_iff.mpr hpair)
        rw [eq_comm, getLast?_turns_swap hsecond hfirst hsound',
          ← opposed_sublist_swap hsecond hfirst]
        exact forall₂_congr fun s o => imp_congr_right fun _ => Iff.comm
      · exact absurd (hfirst.trans hsecond.symm) hdistinct
  | first :: second :: third :: rest =>
    -- there are two such keys only
    have hfirst := honly first (by simp)
    have hsecond := honly second (by simp)
    have hthird := honly third (by simp)
    simp only [List.map_cons, List.nodup_cons, List.mem_cons, not_or] at hkeys
    grind

/-- The pairs that may turn the direction. -/
def turning (pairs : List (String × String)) : List (String × String) :=
  pairs.filter fun pair => pair.1 = ReservedKey.sort.word ∨ pair.1 = ReservedKey.order.word

private theorem filterMap_turn?_turning (pairs : List (String × String)) :
    (turning pairs).filterMap turn? = pairs.filterMap turn? := by
  unfold turning
  rw [List.filterMap_filter]
  refine List.filterMap_congr fun pair _ => ?_
  split
  · rfl
  · next hother =>
    simp only [decide_eq_true_eq, not_or] at hother
    exact (turn?_other hother.1 hother.2).symm

private theorem opposed_sublist_turning {s o : String × String} (hopposed : Opposed s o)
    (pairs : List (String × String)) :
    [s, o].Sublist (turning pairs) ↔ [s, o].Sublist pairs := by
  constructor
  · exact fun hsublist => hsublist.trans List.filter_sublist
  · intro hsublist
    have hself : turning [s, o] = [s, o] := by simp [turning, hopposed.sort, hopposed.order]
    exact hself ▸ hsublist.filter _

/-- Whether parameters are the same but for the order of the clauses and the direction. -/
structure SameButDirection (p q : Params) : Prop where
  clauses : p.clauses.Perm q.clauses
  chains : p.chains = q.chains
  select : p.select = q.select
  sort : p.sort = q.sort
  limit : p.limit = q.limit
  offset : p.offset = q.offset
  page : p.page = q.page
  count : p.count = q.count

/-- Pairs with distinct keys are read in any order or in none, and their order counts for the
    direction alone: it stays the same exactly if a hyphen at the sort field and an ascending
    direction, where pairs ask for both, stay in the order they have. -/
theorem parse_perm {pairs pairs' : List (String × String)} (hkeys : (pairs.map Prod.fst).Nodup)
    (hperm : pairs.Perm pairs') :
    ((∃ p, parse pairs = .ok p) ↔ ∃ q, parse pairs' = .ok q) ∧
    ∀ p q, parse pairs = .ok p → parse pairs' = .ok q →
      SameButDirection p q ∧
      (p.direction = q.direction ↔
        ∀ s o, Opposed s o → ([s, o].Sublist pairs ↔ [s, o].Sublist pairs')) := by
  have hgiven {α : Type} (read : String → Except RequestError α) (key : ReservedKey) :=
    given?_perm hkeys hperm read key
  refine ⟨by simp only [exists_parse_iff, hperm.mem_iff], fun p q hp hq => ?_⟩
  have hsound := exists_parse_iff.mp ⟨p, hp⟩
  obtain rfl := eq_given_of_parse hp
  obtain rfl := eq_given_of_parse hq
  constructor
  · have hchains : (given pairs).chains = (given pairs').chains := by
      simp only [given, filter_key_perm hkeys hperm]
    exact ⟨(hperm.filter _).filterMap _, hchains, congrArg Option.join (hgiven _ _),
      congrArg (Option.map Prod.fst) (hgiven _ _), hgiven _ _, hgiven _ _, hgiven _ _, hgiven _ _⟩
  · have hturning : (turning pairs).Perm (turning pairs') := hperm.filter _
    have honly : ∀ pair ∈ turning pairs, pair.1 = ReservedKey.sort.word ∨
        pair.1 = ReservedKey.order.word := by
      intro pair hpair
      simpa using (List.mem_filter.mp hpair).2
    have hturns :=
      getLast?_turns_perm hturning (hkeys.sublist (List.filter_sublist.map Prod.fst)) honly
      fun pair hpair => hsound pair (List.mem_of_mem_filter hpair)
    rw [filterMap_turn?_turning, filterMap_turn?_turning] at hturns
    refine hturns.trans (forall₃_congr fun s o hopposed => ?_)
    exact iff_congr (opposed_sublist_turning hopposed pairs)
      (opposed_sublist_turning hopposed pairs')

/-- A limit read before the sort field and the direction, and not after them: the direction
    stays. -/
theorem parse_perm_limit_first :
    ([("sort", "-n"), ("order", "asc"), ("limit", "5")].map Prod.fst).Nodup ∧
    [("sort", "-n"), ("order", "asc"), ("limit", "5")].Perm
      [("limit", "5"), ("sort", "-n"), ("order", "asc")] ∧
    ∃ p q, parse [("sort", "-n"), ("order", "asc"), ("limit", "5")] = .ok p ∧
      parse [("limit", "5"), ("sort", "-n"), ("order", "asc")] = .ok q ∧
      SameButDirection p q := by
  have hkeys : ([("sort", "-n"), ("order", "asc"), ("limit", "5")].map Prod.fst).Nodup := by decide
  have hperm : [("sort", "-n"), ("order", "asc"), ("limit", "5")].Perm
      [("limit", "5"), ("sort", "-n"), ("order", "asc")] := by decide
  obtain ⟨hboth, hsame⟩ := parse_perm hkeys hperm
  have hp : parse [("sort", "-n"), ("order", "asc"), ("limit", "5")] =
      .ok { sort := some "n", direction := some .ascending, limit := some 5 } := by
    decide +kernel
  obtain ⟨q, hq⟩ := hboth.mp ⟨_, hp⟩
  exact ⟨hkeys, hperm, _, q, hp, hq, (hsame _ q hp hq).1⟩

/-- After the ascending direction a hyphen at the sort field counts, and before it the hyphen is
    lost. -/
theorem parse_hyphen_first :
    ([("sort", "-n"), ("order", "asc")].map Prod.fst).Nodup ∧
    [("sort", "-n"), ("order", "asc")].Perm [("order", "asc"), ("sort", "-n")] ∧
    parse [("order", "asc"), ("sort", "-n")] =
      .ok { sort := some "n", direction := some .descending } ∧
    parse [("sort", "-n"), ("order", "asc")] =
      .ok { sort := some "n", direction := some .ascending } := by
  decide +kernel

end DocQuery.Params
