import Mathlib.Data.List.Induction
import DocQuery.Proofs.Query.Faults

namespace DocQuery.Params

/-- The last text that pairs give for a key. -/
def last? (key : ReservedKey) (pairs : List (String × String)) : Option String :=
  (pairs.filter fun pair => pair.1 = key.word).getLast?.map (·.2)

/-- The pairs whose keys are not reserved. -/
def unreserved (pairs : List (String × String)) : List (String × String) :=
  pairs.filter fun pair => pair.1 ∉ ReservedKey.all.map ReservedKey.word

/-- What pairs say of the clauses and the page: every key that is not reserved spells a clause, in
    the order of the pairs, and of several limits or pages the last one counts. -/
structure Reads (pairs : List (String × String)) (p : Params) : Prop where
  clauses : List.Forall₂ (fun pair c => Clause.Spells pair.1 pair.2 c)
    (unreserved pairs) p.clauses
  limit : Option.Rel IsCount (last? .limit pairs) p.limit
  page : Option.Rel IsCount (last? .page pairs) p.page

/-- Taking in the value of a reserved key changes the member of that key alone. -/
theorem assign_eq_ok {key : ReservedKey} {raw : String} {p q : Params}
    (hok : p.assign key raw = .ok q) :
    q.clauses = p.clauses ∧
      (if key = .limit then Option.Rel IsCount (some raw) q.limit else q.limit = p.limit) ∧
      (if key = .page then Option.Rel IsCount (some raw) q.page else q.page = p.page) := by
  cases key with
  | limit =>
    obtain ⟨n, hn, hq⟩ := bind_eq_ok_iff.mp hok
    cases hq
    exact ⟨rfl, .some (parseCount_eq_ok_iff.mp hn), rfl⟩
  | page =>
    obtain ⟨n, hn, hq⟩ := bind_eq_ok_iff.mp hok
    split at hq
    · cases hq
    · cases hq
      exact ⟨rfl, rfl, .some (parseCount_eq_ok_iff.mp hn)⟩
  | populate | select | sort | order | offset | count =>
    obtain ⟨value, -, hq⟩ := bind_eq_ok_iff.mp hok
    cases hq
    exact ⟨rfl, rfl, rfl⟩

/-- Of several values of a key the last one counts. -/
theorem last?_concat (key : ReservedKey) (pairs : List (String × String))
    (pair : String × String) :
    last? key (pairs ++ [pair]) = if pair.1 = key.word then some pair.2 else last? key pairs := by
  unfold last?
  rw [List.filter_append]
  split
  · next hword => simp [hword]
  · next hword => simp [hword]

private theorem mem_words_iff {word : String} :
    word ∈ ReservedKey.all.map ReservedKey.word ↔ ∃ key : ReservedKey, word = key.word := by
  have hall : ∀ key : ReservedKey, key ∈ ReservedKey.all := by
    intro key
    cases key <;> decide
  simp only [List.mem_map, hall, true_and, eq_comm]

/-- The pair of a reserved key is no clause. -/
theorem unreserved_concat_reserved (pairs : List (String × String)) {pair : String × String}
    {key : ReservedKey} (hkey : pair.1 = key.word) :
    unreserved (pairs ++ [pair]) = unreserved pairs := by
  have hword := mem_words_iff.mpr ⟨key, hkey⟩
  unfold unreserved
  rw [List.filter_append, List.filter_singleton, decide_eq_false (not_not.mpr hword), cond_false,
    List.append_nil]

/-- Every pair whose key is not reserved is a clause. -/
theorem unreserved_concat_clause (pairs : List (String × String)) {pair : String × String}
    (hfree : ∀ key : ReservedKey, pair.1 ≠ key.word) :
    unreserved (pairs ++ [pair]) = unreserved pairs ++ [pair] := by
  have hword := mt mem_words_iff.mp (not_exists.mpr hfree)
  unfold unreserved
  rw [List.filter_append, List.filter_singleton, decide_eq_true hword, cond_true]

private theorem Reads.concat_reserved {pairs : List (String × String)} {p q : Params}
    {pair : String × String} (hreads : Reads pairs p) {key : ReservedKey}
    (hkey : pair.1 = key.word) (hok : p.assign key pair.2 = .ok q) : Reads (pairs ++ [pair]) q := by
  obtain ⟨hclauses, hlimit, hpage⟩ := assign_eq_ok hok
  have hlast : ∀ (wanted : ReservedKey) (old new : Option Nat),
      (if key = wanted then Option.Rel IsCount (some pair.2) new else new = old) →
      Option.Rel IsCount (last? wanted pairs) old →
      Option.Rel IsCount (last? wanted (pairs ++ [pair])) new := by
    intro wanted old new hnew hold
    have hsame : pair.1 = wanted.word ↔ key = wanted := hkey ▸ ReservedKey.word_inj
    rw [last?_concat]
    split at hnew
    · next hwanted => rwa [if_pos (hsame.mpr hwanted)]
    · next hother => rwa [if_neg (mt hsame.mp hother), hnew]
  refine ⟨?_, hlast .limit _ _ hlimit hreads.limit, hlast .page _ _ hpage hreads.page⟩
  rw [unreserved_concat_reserved pairs hkey, hclauses]
  exact hreads.clauses

private theorem Reads.concat_clause {pairs : List (String × String)} {p q : Params}
    {pair : String × String} (hreads : Reads pairs p)
    (hfree : ∀ key : ReservedKey, pair.1 ≠ key.word)
    (hok : p.addClause pair.1 (.text pair.2) = .ok q) : Reads (pairs ++ [pair]) q := by
  obtain ⟨c, hc, hq⟩ := bind_eq_ok_iff.mp hok
  cases hq
  refine ⟨?_, ?_, ?_⟩
  · rw [unreserved_concat_clause pairs hfree]
    exact List.rel_append hreads.clauses (.cons (Clause.parse_text_eq_ok_iff_spells.mp hc) .nil)
  · rw [last?_concat, if_neg (hfree .limit)]
    exact hreads.limit
  · rw [last?_concat, if_neg (hfree .page)]
    exact hreads.page

/-- Pairs with one more are read when they are read and it can be taken in. -/
theorem parse_concat_eq_ok_iff {pairs : List (String × String)} {pair : String × String}
    {p : Params} :
    parse (pairs ++ [pair]) = .ok p ↔ ∃ before, parse pairs = .ok before ∧
      before.addPair pair = .ok p := by
  unfold parse
  rw [List.foldlM_append, bind_eq_ok_iff]
  simp

/-- Parameters that are read from pairs say what the pairs say. -/
theorem reads_of_parse {pairs : List (String × String)} {p : Params} (hok : parse pairs = .ok p) :
    Reads pairs p := by
  induction pairs using List.reverseRecOn generalizing p with
  | nil =>
    cases hok
    exact ⟨.nil, .none, .none⟩
  | append_singleton pairs pair ih =>
    obtain ⟨before, hbefore, hadd⟩ := parse_concat_eq_ok_iff.mp hok
    unfold addPair at hadd
    split at hadd
    · next key hword =>
      exact (ih hbefore).concat_reserved (ReservedKey.ofWord?_eq_some_iff.mp hword) hadd
    · next hword =>
      exact (ih hbefore).concat_clause (ReservedKey.ofWord?_eq_none_iff.mp hword) hadd

/-- Every clause is spelled by some pair. -/
theorem Reads.exists_parse {pairs : List (String × String)} {p : Params} (hreads : Reads pairs p)
    {c : Clause} (hc : c ∈ p.clauses) :
    ∃ key value, Clause.parse key (.text value) = .ok c := by
  have hclauses := hreads.clauses
  revert hc hclauses
  generalize p.clauses = clauses, unreserved pairs = free
  intro hc hclauses
  induction hclauses with
  | nil => cases hc
  | @cons pair first _ _ hspells _ ih =>
    rcases List.mem_cons.mp hc with rfl | hrest
    · exact ⟨pair.1, pair.2, Clause.parse_text_eq_ok_iff_spells.mpr hspells⟩
    · exact ih hrest

theorem IsCount.unique {raw : String} {n m : Nat} (hn : IsCount raw n) (hm : IsCount raw m) :
    n = m := by
  have hread : parseCount .limit raw = .ok n := parseCount_eq_ok_iff.mpr hn
  rw [parseCount_eq_ok_iff.mpr hm] at hread
  exact (Except.ok.inj hread).symm

/-- Pairs say one thing of each. -/
theorem Reads.unique {pairs : List (String × String)} {p q : Params} (hp : Reads pairs p)
    (hq : Reads pairs q) : p.clauses = q.clauses ∧ p.limit = q.limit ∧ p.page = q.page := by
  have hclause : Relator.RightUnique fun (pair : String × String) c =>
      Clause.Spells pair.1 pair.2 c := by
    intro pair c c' hc hc'
    rw [← Clause.parse_text_eq_ok_iff_spells] at hc hc'
    rw [hc] at hc'
    exact Except.ok.inj hc'
  have hcount : ∀ {raw : Option String} {n m : Option Nat}, Option.Rel IsCount raw n →
      Option.Rel IsCount raw m → n = m := by
    intro raw n m hn hm
    cases hn with
    | none =>
      cases hm
      rfl
    | some hn =>
      cases hm with
      | some hm => exact congrArg some (hn.unique hm)
  exact ⟨hclause.forall₂ hp.clauses hq.clauses, hcount hp.limit hq.limit,
    hcount hp.page hq.page⟩

end DocQuery.Params
