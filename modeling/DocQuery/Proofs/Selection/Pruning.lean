import Mathlib.Data.List.Forall2
import DocQuery.Proofs.NameTree
import DocQuery.Selection

namespace DocQuery

namespace Json

/-- A property holds of every value if it holds of the scalars, and of arrays and objects once it
    holds of what is in them. -/
theorem induction_on_parts {motive : Json → Prop}
    (scalar : ∀ a : Json, (∀ items, a ≠ .arr items) →
      (∀ members, a ≠ .obj members) → motive a)
    (arr : ∀ items, (∀ item ∈ items, motive item) → motive (.arr items))
    (obj : ∀ members, (∀ member ∈ members, motive member.2) → motive (.obj members))
    (a : Json) : motive a := by
  match a with
  | .null | .bool _ | .num _ | .str _ =>
    exact scalar _ (fun _ h => by cases h) fun _ h => by cases h
  | .arr items => exact arr items fun item hitem => induction_on_parts scalar arr obj item
  | .obj members => exact obj members fun member hmember =>
    induction_on_parts scalar arr obj member.2
termination_by sizeOf a
decreasing_by
  · have hlt := List.sizeOf_lt_of_mem hitem
    simp only [Json.arr.sizeOf_spec]
    omega
  · obtain ⟨name, value⟩ := member
    have hlt := List.sizeOf_lt_of_mem hmember
    simp only [Json.obj.sizeOf_spec, Prod.mk.sizeOf_spec] at hlt ⊢
    omega

end Json

/-- Whether entries have the same names in turn, with values that are related. -/
inductive Entries.Related {α β : Type} (related : α → β → Prop) :
    List (String × α) → List (String × β) → Prop where
  | nil : Related related [] []
  | cons {name : String} {a : α} {b : β} {as : List (String × α)} {bs : List (String × β)}
      (value : related a b)
      (rest : Related related as bs) : Related related ((name, a) :: as) ((name, b) :: bs)

namespace Selection

/-- Whether a value is what is left of another when members of its objects are left out, by their
    names and never the id. Arrays keep their length and their order, and scalars stay. -/
inductive PrunesTo : Json → Json → Prop where
  | same (value : Json) : PrunesTo value value
  | arr {items kept : List Json} (each : List.Forall₂ PrunesTo items kept) :
      PrunesTo (.arr items) (.arr kept)
  | obj {members kept : List (String × Json)} (survives : String → Bool)
      (id : survives Document.idField = true)
      (each : Entries.Related PrunesTo (members.filter fun member => survives member.1) kept) :
      PrunesTo (.obj members) (.obj kept)

/-- What a selection keeps of a member: what is selected of it, or all of it if its name is always
    kept. -/
def keep? (tree : NameTree) (always : String → Bool) (member : String × Json) :
    Option (String × Json) :=
  match tree.child? member.1 with
  | some nested => some (member.1, prune nested member.2)
  | none => if always member.1 then some member else none

section Prune

variable (tree : NameTree)

theorem pruneItems_eq_map (items : List Json) : pruneItems tree items = items.map (prune tree) := by
  induction items with
  | nil => rfl
  | cons item rest ih => rw [pruneItems, ih, List.map_cons]

theorem pruneMembers_eq_filterMap (members : List (String × Json)) :
    pruneMembers tree members =
      members.filterMap (keep? tree fun name => name = Document.idField) := by
  induction members with
  | nil => rfl
  | cons member rest ih =>
    obtain ⟨name, value⟩ := member
    rw [pruneMembers, List.filterMap_cons, ih, keep?]
    cases tree.child? name with
    | some nested => rfl
    | none => by_cases hid : name = Document.idField <;> simp [hid]

/-- Nothing is selected inside of a value without members and elements. -/
theorem prune_scalar {value : Json} (harr : ∀ items, value ≠ .arr items)
    (hobj : ∀ members, value ≠ .obj members) :
    prune tree value = value := by
  cases value with
  | null | bool | num | str => rfl
  | arr items => exact absurd rfl (harr items)
  | obj members => exact absurd rfl (hobj members)

/-- The elements of an array all stay, and each is pruned alike. -/
theorem prune_arr (items : List Json) :
    prune tree (.arr items) =
      if tree.isEmpty then .arr items else .arr (items.map (prune tree)) := by
  rw [prune, pruneItems_eq_map]

/-- Of an object the named members stay, and its id. -/
theorem prune_obj (members : List (String × Json)) :
    prune tree (.obj members) = if tree.isEmpty then .obj members
      else .obj (members.filterMap (keep? tree fun name => name = Document.idField)) := by
  rw [prune, pruneMembers_eq_filterMap]

variable (always : String → Bool)

/-- The members that are kept are those whose names are selected or always kept, with values
    pruned. -/
theorem related_filterMap_keep? {related : Json → Json → Prop} {members : List (String × Json)}
    (hsame : ∀ value, related value value)
    (hprune : ∀ member ∈ members, ∀ nested, related member.2 (prune nested member.2)) :
    Entries.Related related
      (members.filter fun member => (tree.child? member.1).isSome || always member.1)
      (members.filterMap (keep? tree always)) := by
  induction members with
  | nil => exact .nil
  | cons member rest ih =>
    obtain ⟨hfirst, hrest⟩ := List.forall_mem_cons.mp hprune
    obtain ⟨name, value⟩ := member
    rw [List.filter_cons, List.filterMap_cons, keep?]
    cases hchild : tree.child? name with
    | some nested => simpa using .cons (hfirst nested) (ih hrest)
    | none =>
      cases halways : always name with
      | true => simpa [hchild, halways] using .cons (hsame value) (ih hrest)
      | false => simpa [hchild, halways] using ih hrest

/-- What is kept under a name is all of its value, or what is selected of it. -/
theorem get?_filterMap_keep? (name : String) (members : List (String × Json)) :
    Entries.get? name (members.filterMap (keep? tree always)) =
      match tree.child? name with
      | some nested => (Entries.get? name members).map (prune nested)
      | none => if always name then Entries.get? name members else none := by
  induction members with
  | nil => cases tree.child? name <;> simp [Entries.get?]
  | cons member rest ih =>
    obtain ⟨other, value⟩ := member
    rw [List.filterMap_cons, keep?, Entries.get?]
    by_cases hname : other = name
    · subst hname
      cases hchild : tree.child? other with
      | some nested => simp [Entries.get?]
      | none =>
        cases halways : always other with
        | true => simp [Entries.get?]
        | false => simpa [hchild, halways] using ih
    · rw [if_neg hname, ← ih]
      cases tree.child? other with
      | some nested => simp [Entries.get?, hname]
      | none => cases halways : always other <;> simp [Entries.get?, hname]

/-- Keeping the same once more keeps all, where pruning the values once more leaves them. -/
theorem filterMap_keep?_filterMap {members : List (String × Json)}
    (hprune : ∀ member ∈ members, ∀ nested, prune nested (prune nested member.2) =
      prune nested member.2) :
    (members.filterMap (keep? tree always)).filterMap (keep? tree always) =
      members.filterMap (keep? tree always) := by
  rw [List.filterMap_filterMap]
  refine List.filterMap_congr fun member hmember => ?_
  unfold keep?
  cases hchild : tree.child? member.1 with
  | some nested => simp [hchild, hprune member hmember nested]
  | none => by_cases halways : always member.1 <;> simp [hchild, halways]

end Prune

/-- Selecting leaves members of objects out and changes nothing else. -/
theorem prunesTo_prune (tree : NameTree) (value : Json) : PrunesTo value (prune tree value) := by
  induction value using Json.induction_on_parts generalizing tree with
  | scalar value harr hobj =>
    rw [prune_scalar tree harr hobj]
    exact .same value
  | arr items ih =>
    rw [prune_arr]
    split
    · exact .same _
    · exact .arr
        (List.forall₂_map_right_iff.mpr
          (List.forall₂_same.mpr fun item hitem => ih item hitem tree))
  | obj members ih =>
    rw [prune_obj]
    split
    · exact .same _
    · refine .obj
        (fun name => (tree.child? name).isSome || decide (name = Document.idField)) (by simp) ?_
      exact related_filterMap_keep? tree (fun name => name = Document.idField) .same ih

private theorem prune_prune (tree : NameTree) (value : Json) :
    prune tree (prune tree value) = prune tree value := by
  induction value using Json.induction_on_parts generalizing tree with
  | scalar value harr hobj => rw [prune_scalar tree harr hobj, prune_scalar tree harr hobj]
  | arr items ih =>
    by_cases hempty : tree.isEmpty
    · rw [prune_arr, if_pos hempty, prune_arr, if_pos hempty]
    · rw [prune_arr, if_neg hempty, prune_arr, if_neg hempty, List.map_map]
      exact congrArg Json.arr (List.map_congr_left fun item hitem => ih item hitem tree)
  | obj members ih =>
    by_cases hempty : tree.isEmpty
    · rw [prune_obj, if_pos hempty, prune_obj, if_pos hempty]
    · rw [prune_obj, if_neg hempty, prune_obj, if_neg hempty, filterMap_keep?_filterMap tree _ ih]

/-- Whether a document is a projection of another: the same but for its data, of which the members
    stay that some selected field begins with or that are hydrated, in their order and with values
    that are pruned. -/
structure IsProjection (fields hydrated : List String) (d projected : Document) : Prop where
  id : projected.id = d.id
  collection : projected.collection = d.collection
  created : projected.created = d.created
  updated : projected.updated = d.updated
  data : Entries.Related PrunesTo
    (d.data.filter fun member =>
      (∃ field ∈ fields, (Text.split '.' field).head? = some member.1) ∨
        member.1 ∈ hydrated)
    projected.data

section Project

variable (fields hydrated : List String) (d : Document)

/-- Of the data stay the selected fields, pruned, and the hydrated relations. -/
theorem data_project : (project fields hydrated d).data =
    d.data.filterMap (keep? (ofFields fields) fun name => name ∈ hydrated) := by
  refine List.filterMap_congr fun member _ => ?_
  cases hchild : (ofFields fields).child? member.1 <;> simp [keep?, hchild]

/-- The names that a selection holds are those that its fields begin with. -/
theorem isSome_child?_ofFields (name : String) : ((ofFields fields).child? name).isSome = true ↔
    ∃ field ∈ fields, (Text.split '.' field).head? = some name := by
  rw [Option.isSome_iff_ne_none, ofFields, ne_eq, NameTree.child?_ofPaths_eq_none_iff]
  constructor
  · intro hafter
    obtain ⟨rest, hrest⟩ := List.exists_mem_of_ne_nil _ hafter
    obtain ⟨field, hfield, hsplit⟩ := List.mem_map.mp (NameTree.mem_after_iff.mp hrest)
    exact ⟨field, hfield, by rw [hsplit, List.head?_cons]⟩
  · rintro ⟨field, hfield, hhead⟩
    obtain ⟨rest, hsplit⟩ := List.head?_eq_some_iff.mp hhead
    exact List.ne_nil_of_mem
      (NameTree.mem_after_iff.mpr (List.mem_map.mpr ⟨field, hfield, hsplit⟩))

/-- The selected fields of a document are pruned, and its hydrated relations are kept whole. -/
theorem isProjection_project : IsProjection fields hydrated d (project fields hydrated d) := by
  refine ⟨rfl, rfl, rfl, rfl, ?_⟩
  rw [data_project]
  simp only [← isSome_child?_ofFields]
  have hrelated := related_filterMap_keep? (ofFields fields) (fun name => name ∈ hydrated) .same
    fun member (_ : member ∈ d.data) nested => prunesTo_prune nested member.2
  simpa using hrelated

/-- Selecting the same fields once more changes nothing. -/
theorem project_project :
    project fields hydrated (project fields hydrated d) = project fields hydrated d := by
  have hdata : (project fields hydrated (project fields hydrated d)).data =
      (project fields hydrated d).data := by
    rw [data_project, data_project]
    exact filterMap_keep?_filterMap _ _ fun member _ nested => prune_prune nested member.2
  exact congrArg (fun data => { d with data }) hdata

/-- What is under a hydrated name stays, pruned at most. -/
theorem exists_kept_of_hydrated {name : String} (hname : name ∈ hydrated) {value : Json}
    (hvalue : Entries.get? name d.data = some value) :
    ∃ kept, Entries.get? name (project fields hydrated d).data = some kept ∧
      PrunesTo value kept := by
  rw [data_project, get?_filterMap_keep?, hvalue]
  cases (ofFields fields).child? name with
  | some nested => exact ⟨prune nested value, rfl, prunesTo_prune nested value⟩
  | none => exact ⟨value, if_pos (decide_eq_true hname), .same value⟩

end Project

end Selection

end DocQuery
