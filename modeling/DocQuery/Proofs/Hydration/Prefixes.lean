import DocQuery.Proofs.Hydration.Levels
import DocQuery.Proofs.Relation.Warnings
import DocQuery.Proofs.Text.Pieces

namespace DocQuery

/-- The text of a chain that was read tells its relations. -/
theorem Chain.relations_of_parse {raw : String} {chain : Chain}
    (hparse : Chain.parse raw = .ok chain) :
    chain.relations = Text.split '.' chain.text := by
  simp only [Chain.parse] at hparse
  split at hparse
  · cases hparse
  · obtain rfl := Except.ok.inj hparse
    rw [Chain.text, Text.joinDots_split]

private theorem Chain.eq_of_text_eq {raw raw' : String} {chain chain' : Chain}
    (hparse : Chain.parse raw = .ok chain) (hparse' : Chain.parse raw' = .ok chain')
    (htext : chain.text = chain'.text) : chain = chain' := by
  obtain ⟨relations⟩ := chain
  obtain ⟨relations'⟩ := chain'
  have hrelations := Chain.relations_of_parse hparse
  rw [htext, ← Chain.relations_of_parse hparse'] at hrelations
  exact congrArg Chain.mk hrelations

namespace Hydration

/-- The paths of the tree are the beginnings of chains up to the limit. -/
theorem contains_tree_iff {chains : List Chain} {max : Nat} {path : List String}
    (hpath : path ≠ []) :
    (tree chains max).1.contains path = true ↔
      path.length ≤ max ∧ ∃ chain ∈ chains, path <+: chain.relations := by
  unfold tree
  rw [NameTree.contains_ofPaths_iff, or_iff_right hpath]
  simp only [List.mem_map, exists_exists_and_eq_and, List.prefix_take_iff]
  constructor
  · rintro ⟨chain, hchain, hstart, hlength⟩
    exact ⟨hlength, chain, hchain, hstart⟩
  · rintro ⟨hlength, chain, hchain, hstart⟩
    exact ⟨chain, hchain, hstart, hlength⟩

/-- Chains in another order, or given more than once, have the same tree. -/
theorem tree_eq_of_same_members {chains others : List Chain} {max : Nat}
    (hsame : ∀ chain, chain ∈ others ↔ chain ∈ chains) :
    (tree others max).1 = (tree chains max).1 := by
  refine (NameTree.ordered_ofPaths _).ext (NameTree.ordered_ofPaths _) fun path => ?_
  cases path with
  | nil => rfl
  | cons name rest =>
    rw [Bool.eq_iff_iff]
    have hne := List.cons_ne_nil name rest
    exact (contains_tree_iff hne).trans
      (Iff.trans (by simp only [hsame]) (contains_tree_iff hne).symm)

/-- There is one warning for every chain over the limit that was read, in the order of first
    occurrences. -/
theorem warnings_tree_eq {chains : List Chain} {max : Nat}
    (hread : ∀ chain ∈ chains, ∃ raw, Chain.parse raw = .ok chain) :
    (tree chains max).2 =
      (chains.filter fun chain => max < chain.depth).eraseDups.map fun chain =>
        .chainTooLong chain.text max := by
  unfold tree
  rw [Warning.merge_nil]
  apply eraseDups_map
  intro chain hchain chain' hchain' hwarning
  obtain ⟨raw, hparse⟩ := hread chain (List.mem_of_mem_filter hchain)
  obtain ⟨raw', hparse'⟩ := hread chain' (List.mem_of_mem_filter hchain')
  exact Chain.eq_of_text_eq hparse hparse' (Warning.chainTooLong.inj hwarning).1

/-- The tree of chains holds their beginnings up to the limit and no other path. So it is the same
    for chains that are reordered or repeated, and no higher than the limit. Of chains that were
    read there is one warning for each different one that is longer than the limit, in the order in
    which they come first. -/
theorem tree_is_truncated_prefixes (chains : List Chain) (max : Nat) :
    (∀ path : List String, path ≠ [] → ((tree chains max).1.contains path = true ↔
      path.length ≤ max ∧ ∃ chain ∈ chains, path <+: chain.relations)) ∧
    (∀ others : List Chain, (∀ chain, chain ∈ others ↔ chain ∈ chains) →
      (tree others max).1 = (tree chains max).1) ∧
    (tree chains max).1.height ≤ max ∧
    ((∀ chain ∈ chains, ∃ raw, Chain.parse raw = .ok chain) →
      (tree chains max).2 = (chains.filter fun chain => max < chain.depth).eraseDups.map
        fun chain => .chainTooLong chain.text max) := by
  have hheight : (tree chains max).1.height ≤ max :=
    Nat.le_trans (height_tree_le chains max) (Nat.min_le_left _ _)
  refine ⟨fun path hpath => ?_, fun others hsame => ?_, hheight, warnings_tree_eq⟩
  · exact contains_tree_iff hpath
  · exact tree_eq_of_same_members hsame

/-- The chain from a post to where the company of its author is. -/
def locationChain : Chain := ⟨["author", "company", "location"]⟩

/-- A chain that is given twice and is longer than the limit is cut off once and warned of once, and
    it makes no difference that a shorter one stands between. -/
theorem tree_of_long_chain_given_twice :
    (∀ chain ∈ [locationChain, ⟨["category"]⟩, locationChain], ∃ raw,
      Chain.parse raw = .ok chain) ∧
    (tree [locationChain, ⟨["category"]⟩, locationChain] 2).1.contains
      ["author", "company"] = true ∧
    ¬ (tree [locationChain, ⟨["category"]⟩, locationChain] 2).1.contains ["author",
      "company", "location"] ∧
    (tree [⟨["category"]⟩, locationChain] 2).1 =
      (tree [locationChain, ⟨["category"]⟩, locationChain] 2).1 ∧
    (tree [locationChain, ⟨["category"]⟩, locationChain] 2).2 =
      [.chainTooLong "author.company.location" 2] := by
  obtain ⟨hpaths, hsame, -, hwarnings⟩ :=
    tree_is_truncated_prefixes [locationChain, ⟨["category"]⟩, locationChain] 2
  have hlocation : Chain.parse " author.company.location" = .ok locationChain := by decide +kernel
  have hcategory : Chain.parse "category" = .ok ⟨["category"]⟩ := by decide +kernel
  have hread : ∀ chain ∈ [locationChain, ⟨["category"]⟩, locationChain], ∃ raw,
      Chain.parse raw = .ok chain := by
    simp only [List.forall_mem_cons]
    exact ⟨⟨_, hlocation⟩, ⟨_, hcategory⟩, ⟨_, hlocation⟩, List.forall_mem_nil _⟩
  refine ⟨hread, (hpaths _ (List.cons_ne_nil _ _)).mpr ⟨Nat.le_refl 2, ?_⟩,
    fun hlong => ?_, hsame _ ?_, ?_⟩
  · exact ⟨locationChain, List.mem_cons_self, ["location"], rfl⟩
  · have hlength := ((hpaths _ (List.cons_ne_nil _ _)).mp hlong).1
    exact absurd hlength (by decide)
  · intro chain
    simp only [List.mem_cons, List.not_mem_nil, or_false]
    constructor
    · rintro (rfl | rfl)
      · exact .inr (.inl rfl)
      · exact .inl rfl
    · rintro (rfl | rfl | rfl)
      · exact .inr rfl
      · exact .inl rfl
      · exact .inr rfl
  · exact (hwarnings hread).trans (by decide +kernel)

end Hydration

end DocQuery
