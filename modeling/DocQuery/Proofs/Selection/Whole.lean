import DocQuery.Proofs.Selection.Pruning
import DocQuery.Proofs.Text.Pieces

namespace DocQuery.Selection

open NameTree (after ofPaths)

/-- Whether selected paths into a value leave a member out: one that none of them begins with, and
    that is no id, in an object which some of them go into. -/
inductive Trims : List (List String) → Json → Prop where
  | here {paths : List (List String)} {members : List (String × Json)} {path : List String}
      {member : String × Json} (hpath : path ∈ paths) (hinto : path ≠ [])
      (hmember : member ∈ members) (unnamed : after member.1 paths = [])
      (notId : member.1 ≠ Document.idField) : Trims paths (.obj members)
  | inMember {paths : List (List String)} {members : List (String × Json)}
      {member : String × Json} (hmember : member ∈ members)
      (htrims : Trims (after member.1 paths) member.2) : Trims paths (.obj members)
  | inItem {paths : List (List String)} {items : List Json} {item : Json} (hitem : item ∈ items)
      (htrims : Trims paths item) : Trims paths (.arr items)

/-- Paths that end at a value leave nothing of it out. -/
theorem Trims.exists_path {paths : List (List String)} {value : Json} (htrims : Trims paths value) :
    ∃ path ∈ paths, path ≠ [] := by
  induction htrims with
  | here hpath hinto => exact ⟨_, hpath, hinto⟩
  | inMember _ _ ih =>
    obtain ⟨path, hpath, -⟩ := ih
    exact ⟨_, NameTree.mem_after_iff.mp hpath, List.cons_ne_nil _ _⟩
  | inItem _ _ ih => exact ih

private theorem not_trims_scalar {paths : List (List String)} {value : Json}
    (harr : ∀ items, value ≠ .arr items) (hobj : ∀ members, value ≠ .obj members) :
    ¬ Trims paths value := by
  intro htrims
  cases htrims with
  | here | inMember => exact hobj _ rfl
  | inItem => exact harr _ rfl

private theorem not_trims_arr_iff {paths : List (List String)} {items : List Json} :
    ¬ Trims paths (.arr items) ↔ ∀ item ∈ items, ¬ Trims paths item := by
  constructor
  · exact fun hnone item hitem htrims => hnone (.inItem hitem htrims)
  · intro hnone htrims
    cases htrims with
    | inItem hitem htrims => exact hnone _ hitem htrims

private theorem not_trims_obj_iff {paths : List (List String)}
    (hinto : ∃ path ∈ paths, path ≠ []) {members : List (String × Json)} :
    ¬ Trims paths (.obj members) ↔ ∀ member ∈ members,
      (after member.1 paths = [] → member.1 = Document.idField) ∧
      ¬ Trims (after member.1 paths) member.2 := by
  constructor
  · obtain ⟨path, hpath, hne⟩ := hinto
    refine fun hnone member hmember =>
      ⟨fun unnamed => ?_, fun htrims => hnone (.inMember hmember htrims)⟩
    by_contra notId
    exact hnone (.here hpath hne hmember unnamed notId)
  · intro hall htrims
    cases htrims with
    | here _ _ hmember unnamed notId => exact notId ((hall _ hmember).1 unnamed)
    | inMember hmember htrims => exact (hall _ hmember).2 htrims

/-- A member is kept as it is if it is named and nothing in it is left out, or if it is an id. -/
theorem keep?_ofPaths_eq_some_iff {paths : List (List String)} {member : String × Json}
    (hprune : prune (ofPaths (after member.1 paths)) member.2 = member.2 ↔
      ¬ Trims (after member.1 paths) member.2) :
    keep? (ofPaths paths) (fun name => name = Document.idField) member = some member ↔
      (after member.1 paths = [] → member.1 = Document.idField) ∧
      ¬ Trims (after member.1 paths) member.2 := by
  unfold keep?
  rw [NameTree.child?_ofPaths]
  by_cases hafter : after member.1 paths = []
  · have hnone : ¬ Trims (after member.1 paths) member.2 := by
      intro htrims
      obtain ⟨path, hpath, -⟩ := htrims.exists_path
      exact absurd hpath (hafter ▸ List.not_mem_nil)
    simp [hafter ▸ hnone, hafter]
  · simp [hafter, ← hprune, Prod.ext_iff]

private theorem prune_of_isEmpty {tree : NameTree} (hempty : tree.isEmpty = true) (value : Json) :
    prune tree value = value := by
  cases value with
  | null | bool | num | str => rfl
  | arr items => rw [prune_arr, if_pos hempty]
  | obj members => rw [prune_obj, if_pos hempty]

/-- A value comes out of a selection as it was exactly if no member is left out of it. -/
theorem prune_ofPaths_eq_self_iff (paths : List (List String)) (value : Json) :
    prune (ofPaths paths) value = value ↔ ¬ Trims paths value := by
  induction value using Json.induction_on_parts generalizing paths with
  | scalar value harr hobj =>
    exact iff_of_true (prune_scalar _ harr hobj) (not_trims_scalar harr hobj)
  | arr items ih =>
    rw [not_trims_arr_iff, ← forall₂_congr fun item hitem => ih item hitem paths]
    by_cases hempty : (ofPaths paths).isEmpty
    · exact iff_of_true (prune_of_isEmpty hempty _) fun item _ => prune_of_isEmpty hempty item
    · have hself := @List.map_inj_left _ _ items (prune (ofPaths paths)) id
      rw [List.map_id] at hself
      rw [prune_arr, if_neg hempty, Json.arr.injEq, hself]
      rfl
  | obj members ih =>
    by_cases hempty : (ofPaths paths).isEmpty
    · refine iff_of_true (prune_of_isEmpty hempty _) fun htrims => ?_
      obtain ⟨path, hpath, hinto⟩ := htrims.exists_path
      exact hinto (NameTree.isEmpty_ofPaths_iff.mp hempty path hpath)
    · have hinto : ∃ path ∈ paths,
          path ≠ [] := by simpa [NameTree.isEmpty_ofPaths_iff] using hempty
      rw [prune_obj, if_neg hempty, Json.obj.injEq, not_trims_obj_iff hinto]
      have hself := @List.filterMap_eq_map_iff_forall_eq_some _ _
        (keep? (ofPaths paths) fun name => name = Document.idField) id members
      rw [List.map_id] at hself
      rw [hself]
      exact forall₂_congr fun member hmember => keep?_ofPaths_eq_some_iff (ih member hmember _)

variable {fields : List String} {k : String}

/-- What selected fields say of one of their first names. -/
theorem child?_ofFields_of_mem (hselected : k ∈ fields) (hplain : '.' ∉ k.toList) :
    (ofFields fields).child? k = some (ofPaths (after k (fields.map (Text.split '.')))) := by
  have hpath : [] ∈ after k (fields.map (Text.split '.')) :=
    NameTree.mem_after_iff.mpr (List.mem_map.mpr ⟨k, hselected, Text.split_of_not_mem hplain⟩)
  rw [ofFields, NameTree.child?_ofPaths, if_neg (List.ne_nil_of_mem hpath)]

/-- The paths that go on from a field are those of entries that go into it. -/
theorem exists_entry_of_mem_after {path : List String}
    (hpath : path ∈ after k (fields.map (Text.split '.'))) (hinto : path ≠ []) :
    ∃ rest, k ++ "." ++ rest ∈ fields := by
  obtain ⟨field, hfield, hsplit⟩ := List.mem_map.mp (NameTree.mem_after_iff.mp hpath)
  have hjoin : ".".intercalate (k :: path) = field := hsplit ▸ Text.intercalate_split '.' field
  rw [String.intercalate_cons_of_ne_nil hinto] at hjoin
  exact ⟨_, hjoin ▸ hfield⟩

/-- A field that is selected by its name stays as it is if no entry goes into it, and otherwise
    exactly if nothing is left out of it: if in no object of its value that such entries go into
    there is a member, its id apart, that none of them names. -/
theorem get?_project_eq_iff_not_trims (hselected : k ∈ fields) (hplain : '.' ∉ k.toList)
    (hydrated : List String) (d : Document) :
    ((∀ rest, k ++ "." ++ rest ∉ fields) →
      Entries.get? k (project fields hydrated d).data = Entries.get? k d.data) ∧
    (Entries.get? k (project fields hydrated d).data = Entries.get? k d.data ↔
      ∀ value, Entries.get? k d.data = some value →
        ¬ Trims (after k (fields.map (Text.split '.'))) value) := by
  have hsame : Entries.get? k (project fields hydrated d).data = Entries.get? k d.data ↔
      ∀ value, Entries.get? k d.data = some value →
        ¬ Trims (after k (fields.map (Text.split '.'))) value := by
    rw [data_project, get?_filterMap_keep?, child?_ofFields_of_mem hselected hplain]
    cases hvalue : Entries.get? k d.data with
    | none => simp
    | some value => simp [← prune_ofPaths_eq_self_iff]
  refine ⟨fun hnone => hsame.mpr fun value _ htrims => ?_, hsame⟩
  obtain ⟨path, hpath, hinto⟩ := htrims.exists_path
  obtain ⟨rest, hentry⟩ := exists_entry_of_mem_after hpath hinto
  exact hnone rest hentry

/-- A post whose authors are users with roles. -/
def authoredPost : Document :=
  ⟨"p1", "posts", [("title", .str "A"), ("authors", .arr [
    .obj [("id", .str "u1"), ("name", .str "Ann"), ("role", .obj [("name", .str "admin")])],
    .obj [("id", .str "u2"), ("name", .str "Ben")]])], .epoch, .epoch⟩

/-- Entries for all that is known of the authors leave nothing of them out. -/
theorem get?_project_authoredPost_all :
    "authors" ∈ ["authors.role", "authors", "authors.name", "authors.role.name"] ∧
    '.' ∉ "authors".toList ∧
    Entries.get? "authors"
      (project ["authors.role", "authors", "authors.name", "authors.role.name"] []
      authoredPost).data = Entries.get? "authors" authoredPost.data := by
  have hselected : "authors" ∈ ["authors.role", "authors", "authors.name",
      "authors.role.name"] := by decide
  have hplain : '.' ∉ "authors".toList := by decide
  refine ⟨hselected, hplain,
    (get?_project_eq_iff_not_trims hselected hplain [] authoredPost).2.mpr ?_⟩
  intro value hvalue
  cases hvalue
  exact (prune_ofPaths_eq_self_iff _ _).mp (by decide +kernel)

/-- An entry for the names of the authors leaves out their roles, although the authors are
    selected. -/
theorem get?_project_authoredPost_names :
    "authors" ∈ ["authors", "authors.name"] ∧ '.' ∉ "authors".toList ∧
    Entries.get? "authors" (project ["authors", "authors.name"] [] authoredPost).data =
      some (.arr [.obj [("id", .str "u1"), ("name", .str "Ann")],
        .obj [("id", .str "u2"), ("name", .str "Ben")]]) ∧
    Entries.get? "authors" (project ["authors", "authors.name"] [] authoredPost).data ≠
      Entries.get? "authors" authoredPost.data := by
  decide +kernel

end DocQuery.Selection
