import DocQuery.NameTree
import DocQuery.Proofs.Entries

namespace DocQuery.NameTree

/-- Whether the names that may come next ascend, at the root and after every name. -/
inductive Ordered : NameTree → Prop where
  | node {children : List (String × NameTree)} (ascending : Entries.Ascending children)
      (each : ∀ entry ∈ children, Ordered entry.2) : Ordered (.node children)

theorem ordered_empty : Ordered empty := .node List.Pairwise.nil fun _ hmem => by cases hmem

/-- The first names of an ordered tree ascend. -/
theorem Ordered.ascending {tree : NameTree} (hordered : tree.Ordered) :
    Entries.Ascending tree.children := by
  cases hordered with
  | node ascending _ => exact ascending

theorem Ordered.child?_eq_some_iff {tree child : NameTree} {name : String}
    (hordered : tree.Ordered) :
    tree.child? name = some child ↔ (name, child) ∈ tree.children :=
  Entries.get?_eq_some_iff hordered.ascending

/-- What follows a name is ordered as well. -/
theorem Ordered.child? {tree child : NameTree} {name : String} (hordered : tree.Ordered)
    (hchild : tree.child? name = some child) : child.Ordered := by
  cases hordered with
  | node _ each => exact each _ (Entries.mem_of_get? hchild)

/-- Adding a path keeps the names of every node in order. -/
theorem Ordered.add (path : List String) {tree : NameTree} (hordered : tree.Ordered) :
    (tree.add path).Ordered := by
  induction path generalizing tree with
  | nil => exact hordered
  | cons name rest ih =>
    have hbelow : ((tree.child? name).getD empty).Ordered := by
      cases hchild : tree.child? name with
      | none => exact ordered_empty
      | some child => exact hordered.child? hchild
    cases hordered with
    | node ascending each =>
      refine .node (Entries.ascending_insert _ _ ascending) fun entry hentry => ?_
      rcases Entries.mem_insert hentry with rfl | hentry
      · exact ih hbelow
      · exact each entry hentry

/-- The tree of several paths is ordered, whatever order the paths come in. -/
theorem ordered_ofPaths (paths : List (List String)) : (ofPaths paths).Ordered := by
  unfold ofPaths
  suffices h : ∀ tree : NameTree, tree.Ordered →
      (paths.foldl (fun tree path => tree.add path) tree).Ordered from
    h empty ordered_empty
  induction paths with
  | nil => exact fun _ h => h
  | cons path rest ih => exact fun tree hordered => ih _ (hordered.add path)

/-- The trees after the names of a node are lower than the tree. -/
theorem height_lt_of_mem {children : List (String × NameTree)} {entry : String × NameTree}
    (hmem : entry ∈ children) : entry.2.height < (node children).height := by
  rw [height]
  induction children with
  | nil => cases hmem
  | cons first rest ih =>
    rw [heightEach]
    rcases List.mem_cons.mp hmem with rfl | hmem
    · omega
    · have hrest := ih hmem
      omega

/-- A tree with a name has a path. -/
theorem height_pos {tree : NameTree} (hmore : ¬ tree.isEmpty) : 0 < tree.height := by
  obtain ⟨children⟩ := tree
  cases children with
  | nil => exact absurd rfl hmore
  | cons entry rest =>
    exact Nat.zero_lt_of_lt (height_lt_of_mem (List.mem_cons_self (a := entry) (l := rest)))

private theorem heightEach_le_iff {children : List (String × NameTree)} {n : Nat} :
    heightEach children ≤ n ↔ ∀ entry ∈ children, entry.2.height + 1 ≤ n := by
  induction children with
  | nil => exact iff_of_true (Nat.zero_le n) fun _ hentry => by cases hentry
  | cons entry rest ih => rw [heightEach, Nat.max_le, ih, List.forall_mem_cons]

/-- Adding a path makes a tree no higher than the path is long. -/
theorem height_add_le {path : List String} {tree : NameTree} {n : Nat} (hpath : path.length ≤ n)
    (htree : tree.height ≤ n) : (tree.add path).height ≤ n := by
  induction path generalizing tree n with
  | nil => exact htree
  | cons name rest ih =>
    obtain ⟨children⟩ := tree
    obtain ⟨n, rfl⟩ : ∃ k, n = k + 1 :=
      Nat.exists_eq_add_one_of_ne_zero (Nat.ne_zero_of_lt hpath)
    have hchildren := heightEach_le_iff.mp htree
    have hbelow : ((child? name (node children)).getD empty).height ≤ n := by
      cases hchild : child? name (node children) with
      | none => exact Nat.zero_le n
      | some child => exact Nat.le_of_succ_le_succ (hchildren _ (Entries.mem_of_get? hchild))
    refine heightEach_le_iff.mpr fun entry hentry => ?_
    rcases Entries.mem_insert hentry with rfl | hentry
    · exact Nat.succ_le_succ (ih (Nat.le_of_succ_le_succ hpath) hbelow)
    · exact hchildren entry hentry

/-- A tree of paths is as high as the longest of them at most. -/
theorem height_ofPaths_le {paths : List (List String)} {n : Nat}
    (hpaths : ∀ path ∈ paths, path.length ≤ n) :
    (ofPaths paths).height ≤ n := by
  unfold ofPaths
  suffices h : ∀ tree : NameTree, tree.height ≤ n →
      (paths.foldl (fun tree path => tree.add path) tree).height ≤ n from h empty (Nat.zero_le n)
  induction paths with
  | nil => exact fun _ h => h
  | cons path rest ih =>
    obtain ⟨hpath, hrest⟩ := List.forall_mem_cons.mp hpaths
    exact fun tree htree => ih hrest _ (height_add_le hpath htree)

/-- What follows a name in the paths that begin with it. -/
def after (name : String) (paths : List (List String)) : List (List String) :=
  paths.filterMap fun
    | [] => none
    | first :: rest => if first = name then some rest else none

/-- The paths after a name are the rests of those that begin with it. -/
theorem mem_after_iff {name : String} {rest : List String} {paths : List (List String)} :
    rest ∈ after name paths ↔ name :: rest ∈ paths := by
  rw [after, List.mem_filterMap]
  constructor
  · rintro ⟨path, hpath, hrest⟩
    cases path with
    | nil => cases hrest
    | cons first path =>
      obtain ⟨rfl, hsame⟩ := Option.ite_none_right_eq_some.mp hrest
      cases hsame
      exact hpath
  · exact fun hpath => ⟨name :: rest, hpath, if_pos rfl⟩

theorem child?_add (name first : String) (rest : List String) (tree : NameTree) :
    (tree.add (first :: rest)).child? name =
      if first = name then some (((tree.child? first).getD empty).add rest) else tree.child? name :=
  Entries.get?_insert ..

/-- After a name come the paths that go on from it, in a tree that paths are added to. -/
theorem child?_foldl_add (name : String) (paths : List (List String)) (tree : NameTree) :
    (paths.foldl (fun tree path => tree.add path) tree).child? name =
      if after name paths = [] then tree.child? name
      else some ((after name paths).foldl (fun tree path => tree.add path)
        ((tree.child? name).getD empty)) := by
  induction paths generalizing tree with
  | nil => rfl
  | cons path rest ih =>
    rw [List.foldl_cons, ih]
    cases path with
    | nil => rfl
    | cons first path =>
      rw [child?_add]
      by_cases hfirst : first = name
      · have hafter : after name ((first :: path) :: rest) = path :: after name rest := by
          simp [after, hfirst]
        rw [if_pos hfirst, hafter, if_neg (List.cons_ne_nil _ _), hfirst,
          Option.getD_some, List.foldl_cons]
        split
        · next hnone => rw [hnone, List.foldl_nil]
        · rfl
      · have hafter : after name ((first :: path) :: rest) = after name rest := by
          simp [after, hfirst]
        rw [if_neg hfirst, hafter]

/-- After a name in the tree of several paths comes the tree of what follows it in them. -/
theorem child?_ofPaths (name : String) (paths : List (List String)) :
    (ofPaths paths).child? name =
      if after name paths = [] then none else some (ofPaths (after name paths)) :=
  child?_foldl_add name paths empty

theorem isEmpty_iff {tree : NameTree} :
    tree.isEmpty = true ↔ ∀ name, tree.child? name = none := by
  obtain ⟨children⟩ := tree
  cases children with
  | nil => exact iff_of_true rfl fun _ => rfl
  | cons entry rest =>
    refine iff_of_false (fun hempty => by cases hempty) fun hnone => ?_
    have hfirst : (node (entry :: rest)).child? entry.1 = some entry.2 := if_pos rfl
    rw [hnone] at hfirst
    cases hfirst

/-- No name comes next that no path begins with. -/
theorem child?_ofPaths_eq_none_iff {name : String} {paths : List (List String)} :
    (ofPaths paths).child? name = none ↔ after name paths = [] := by
  rw [child?_ofPaths]
  split
  · next hnone => exact iff_of_true rfl hnone
  · next hsome => exact iff_of_false (fun hnone => by cases hnone) hsome

/-- A tree of paths has no name if no path has one. -/
theorem isEmpty_ofPaths_iff {paths : List (List String)} :
    (ofPaths paths).isEmpty = true ↔ ∀ path ∈ paths, path = [] := by
  simp only [isEmpty_iff, child?_ofPaths_eq_none_iff]
  constructor
  · intro hnone path hpath
    cases path with
    | nil => rfl
    | cons name rest => exact absurd (hnone name) (List.ne_nil_of_mem (mem_after_iff.mpr hpath))
  · intro hnil name
    refine List.eq_nil_iff_forall_not_mem.mpr fun rest hrest => ?_
    cases hnil _ (mem_after_iff.mp hrest)

/-- A path may be followed in a tree with another one added if it could before, or if it is the
    beginning of the other. -/
theorem contains_add_iff {path added : List String} {tree : NameTree} :
    (tree.add added).contains path = true ↔ tree.contains path = true ∨ path <+: added := by
  induction added generalizing path tree with
  | nil =>
    rw [add, List.prefix_nil]
    refine (or_iff_left_of_imp ?_).symm
    rintro rfl
    rfl
  | cons name rest ih =>
    cases path with
    | nil => exact iff_of_true rfl (.inl rfl)
    | cons first path =>
      rw [List.cons_prefix_cons, contains, add, child?, children, Entries.get?_insert]
      by_cases hfirst : name = first
      · subst hfirst
        rw [if_pos rfl, Option.any_some, ih, contains]
        cases tree.child? name with
        | none =>
          have hempty : (none.getD empty).contains path = true → path <+: rest := by
            cases path with
            | nil => exact fun _ => List.nil_prefix
            | cons _ _ => exact fun hnever => by cases hnever
          simpa using hempty
        | some child => simp
      · rw [if_neg hfirst]
        have hne : ¬ (first = name ∧ path <+: rest) := fun h => hfirst h.1.symm
        rw [or_iff_left hne]
        rfl

/-- The paths of a tree are the beginnings of those that it was made of. -/
theorem contains_ofPaths_iff {path : List String} {paths : List (List String)} :
    (ofPaths paths).contains path = true ↔ path = [] ∨ ∃ added ∈ paths, path <+: added := by
  have hfold : ∀ tree : NameTree,
      (paths.foldl (fun tree path => tree.add path) tree).contains path = true ↔
      tree.contains path = true ∨ ∃ added ∈ paths, path <+: added := by
    induction paths with
    | nil => simp
    | cons added rest ih =>
      intro tree
      rw [List.foldl_cons, ih, contains_add_iff]
      simp [or_assoc]
  have hempty : empty.contains path = true ↔ path = [] := by
    cases path with
    | nil => exact iff_of_true rfl rfl
    | cons _ _ => exact iff_of_false Bool.false_ne_true (List.cons_ne_nil _ _)
  rw [ofPaths, hfold, hempty]

private theorem contains_of_child? {tree child : NameTree} {name : String}
    (hchild : tree.child? name = some child) (path : List String) :
    tree.contains (name :: path) = child.contains path := by
  rw [contains, hchild, Option.any_some]

private theorem isSome_child? (tree : NameTree) (name : String) :
    (tree.child? name).isSome = tree.contains [name] := by
  rw [contains]
  cases tree.child? name with
  | none => rfl
  | some _ => rfl

/-- Ordered trees with the same paths are one tree: the paths say which names come next and, after
    each of them, which paths go on. -/
theorem Ordered.ext {tree other : NameTree} (hordered : tree.Ordered) (hother : other.Ordered)
    (hsame : ∀ path, tree.contains path = other.contains path) : tree = other := by
  induction hordered generalizing other with
  | @node children ascending each ih =>
    obtain ⟨others⟩ := other
    have hnode : (NameTree.node children).Ordered := .node ascending each
    have hnext : ∀ name, (NameTree.node children).child? name =
        (NameTree.node others).child? name := by
      intro name
      have hsome : ((NameTree.node children).child? name).isSome =
          ((NameTree.node others).child? name).isSome := by
        rw [isSome_child?, isSome_child?, hsame]
      cases hchild : (NameTree.node children).child? name with
      | none =>
        rw [hchild] at hsome
        exact (Option.not_isSome_iff_eq_none.mp (Bool.eq_false_iff.mp hsome.symm)).symm
      | some child =>
        rw [hchild] at hsome
        obtain ⟨child', hchild'⟩ := Option.isSome_iff_exists.mp hsome.symm
        rw [hchild']
        refine congrArg some (ih _ (hnode.child?_eq_some_iff.mp hchild)
          (hother.child? hchild') fun path => ?_)
        rw [← contains_of_child? hchild, ← contains_of_child? hchild', hsame]
    refine congrArg NameTree.node (ascending.ext hother.ascending ?_)
    rintro ⟨name, child⟩
    exact hnode.child?_eq_some_iff.symm.trans (hnext name ▸ hother.child?_eq_some_iff)

end DocQuery.NameTree
