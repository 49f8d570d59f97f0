import DocQuery.Entries

namespace DocQuery.Entries

/-- A new name comes to stand between the entries that are there. -/
theorem insert_of_get?_none {α : Type} {name : String} (value : α) {entries : List (String × α)}
    (hnew : get? name entries = none) :
    ∃ before after, entries = before ++ after ∧
      insert name value entries = before ++ (name, value) :: after := by
  induction entries with
  | nil => exact ⟨[], [], rfl, rfl⟩
  | cons entry rest ih =>
    obtain ⟨other, old⟩ := entry
    have hne : ¬ other = name := by
      intro heq
      rw [get?, if_pos heq] at hnew
      cases hnew
    rw [get?, if_neg hne] at hnew
    obtain ⟨before, after, hrest, hinsert⟩ := ih hnew
    rw [insert, if_neg (Ne.symm hne)]
    by_cases hlt : name < other
    · exact ⟨[], (other, old) :: rest, rfl, by rw [if_pos hlt]; rfl⟩
    · exact ⟨(other, old) :: before, after, by rw [hrest]; rfl,
        by rw [if_neg hlt, hinsert]; rfl⟩

/-- Whether names ascend, and are therefore distinct. -/
def Ascending {α : Type} (entries : List (String × α)) : Prop :=
  entries.Pairwise fun a b => a.1 < b.1

/-- Inserting brings in the new entry alone. -/
theorem mem_insert {α : Type} {name : String} {value : α} {entries : List (String × α)}
    {entry : String × α} (hmem : entry ∈ insert name value entries) :
    entry = (name, value) ∨ entry ∈ entries := by
  induction entries with
  | nil => exact .inl (List.mem_singleton.mp hmem)
  | cons first rest ih =>
    obtain ⟨other, old⟩ := first
    rw [insert] at hmem
    split at hmem
    · exact (List.mem_cons.mp hmem).imp_right (List.mem_cons_of_mem _)
    · split at hmem
      · exact List.mem_cons.mp hmem
      · rcases List.mem_cons.mp hmem with hfirst | hrest
        · exact .inr (hfirst ▸ List.mem_cons_self)
        · exact (ih hrest).imp_right (List.mem_cons_of_mem _)

/-- Inserting a name keeps the order of the names. -/
theorem ascending_insert {α : Type} (name : String) (value : α) {entries : List (String × α)}
    (hascending : Ascending entries) : Ascending (insert name value entries) := by
  induction entries with
  | nil => exact List.pairwise_singleton _ _
  | cons first rest ih =>
    obtain ⟨other, old⟩ := first
    obtain ⟨hfirst, hrest⟩ := List.pairwise_cons.mp hascending
    rw [insert]
    split
    · next heq =>
      subst heq
      exact List.pairwise_cons.mpr ⟨hfirst, hrest⟩
    · next hne =>
      split
      · next hlt =>
        refine List.pairwise_cons.mpr ⟨fun entry hentry => ?_, hascending⟩
        rcases List.mem_cons.mp hentry with rfl | hentry
        · exact hlt
        · exact String.lt_trans hlt (hfirst entry hentry)
      · next hnlt =>
        have hlt : other < name := by
          rcases Std.lt_trichotomy name other with h | h | h
          · exact absurd h hnlt
          · exact absurd h hne
          · exact h
        refine List.pairwise_cons.mpr ⟨fun entry hentry => ?_, ih hrest⟩
        rcases mem_insert hentry with rfl | hentry
        · exact hlt
        · exact hfirst entry hentry

/-- A name after all others comes to stand at the end. -/
theorem insert_of_forall_lt {α : Type} {name : String} (value : α) {entries : List (String × α)}
    (hlast : ∀ entry ∈ entries, entry.1 < name) :
    insert name value entries = entries ++ [(name, value)] := by
  induction entries with
  | nil => rfl
  | cons first rest ih =>
    obtain ⟨hfirst, hrest⟩ := List.forall_mem_cons.mp hlast
    rw [insert, if_neg (String.ne_of_lt hfirst).symm, if_neg (Std.not_gt_of_lt hfirst),
      ih hrest, List.cons_append]

theorem mem_of_get? {α : Type} {name : String} {value : α} {entries : List (String × α)}
    (hget : get? name entries = some value) : (name, value) ∈ entries := by
  induction entries with
  | nil => cases hget
  | cons first rest ih =>
    obtain ⟨other, old⟩ := first
    rw [get?] at hget
    split at hget
    · next heq =>
      subst heq
      cases hget
      exact List.mem_cons_self
    · exact List.mem_cons_of_mem _ (ih hget)

/-- Where names ascend, an entry that is there is found by its name. -/
theorem get?_eq_some_iff {α : Type} {name : String} {value : α} {entries : List (String × α)}
    (hascending : Ascending entries) :
    get? name entries = some value ↔ (name, value) ∈ entries := by
  refine ⟨mem_of_get?, fun hmem => ?_⟩
  induction entries with
  | nil => cases hmem
  | cons first rest ih =>
    obtain ⟨other, old⟩ := first
    obtain ⟨hfirst, hrest⟩ := List.pairwise_cons.mp hascending
    rw [get?]
    rcases List.mem_cons.mp hmem with heq | hmem
    · cases heq
      rw [if_pos rfl]
    · rw [if_neg (String.ne_of_lt (hfirst _ hmem)), ih hrest hmem]

private theorem Ascending.nodup {α : Type} {entries : List (String × α)}
    (hascending : Ascending entries) :
    entries.Nodup := by
  refine hascending.imp ?_
  rintro a _ hlt rfl
  exact String.lt_irrefl _ hlt

/-- The order of the names leaves one place for each entry. -/
theorem Ascending.ext {α : Type} {entries others : List (String × α)}
    (hentries : Ascending entries) (hothers : Ascending others)
    (hmem : ∀ entry, entry ∈ entries ↔ entry ∈ others) : entries = others := by
  refine List.Perm.eq_of_pairwise
    (fun a b _ _ hab hba => absurd hba (String.lt_asymm hab)) hentries hothers ?_
  exact (List.perm_ext_iff_of_nodup hentries.nodup hothers.nodup).mpr hmem

section Written

variable {α : Type} {name : String} {value : α} {done entries : List (String × α)}

/-- A new name is set behind the others. -/
theorem set_of_not_mem (value : α) (hnew : name ∉ names entries) :
    set name value entries = entries ++ [(name, value)] := by
  induction entries with
  | nil => rfl
  | cons entry rest ih =>
    obtain ⟨hname, hrest⟩ := List.ne_and_not_mem_of_not_mem_cons hnew
    rw [set, if_neg (Ne.symm hname), ih hrest]
    rfl

theorem names_set_of_mem (value : α) (hmem : name ∈ names entries) :
    names (set name value entries) = names entries := by
  induction entries with
  | nil => cases hmem
  | cons entry rest ih =>
    obtain ⟨other, old⟩ := entry
    rw [set]
    split
    · next heq => rw [← heq]; rfl
    · next hne =>
      have hrest : name ∈ names rest := (List.mem_cons.mp hmem).resolve_left (Ne.symm hne)
      exact congrArg (other :: ·) (ih hrest)

theorem names_cons (entry : String × α) (entries : List (String × α)) :
    names (entry :: entries) = entry.1 :: names entries := rfl

theorem names_append (entries more : List (String × α)) :
    names (entries ++ more) = names entries ++ names more := List.map_append

theorem length_names (entries : List (String × α)) : (names entries).length = entries.length :=
  List.length_map _

private theorem nodup_names_set (value : α) (hnodup : (names entries).Nodup) :
    (names (set name value entries)).Nodup := by
  by_cases hmem : name ∈ names entries
  · rwa [names_set_of_mem value hmem]
  · rw [set_of_not_mem value hmem, names_append]
    refine List.nodup_append.mpr
      ⟨hnodup, List.pairwise_singleton _ _, fun other hother new hnew => ?_⟩
    obtain rfl : new = name := List.mem_singleton.mp hnew
    exact fun heq => hmem (heq ▸ hother)

private theorem mem_names_set {other : String} (hmem : other ∈ names (set name value entries)) :
    other = name ∨ other ∈ names entries := by
  by_cases hname : name ∈ names entries
  · rw [names_set_of_mem value hname] at hmem
    exact .inr hmem
  · rw [set_of_not_mem value hname, names_append, List.mem_append] at hmem
    exact hmem.symm.imp_left List.mem_singleton.mp

theorem mem_names_of_mem_ofList {entries : List (String × α)}
    (hmem : name ∈ names (ofList entries)) :
    name ∈ names entries := by
  have hfold : ∀ done : List (String × α),
      name ∈ names (entries.foldl (fun done entry => set entry.1 entry.2 done) done) →
        name ∈ names done ∨ name ∈ names entries := by
    clear hmem
    induction entries with
    | nil => exact fun done hdone => .inl hdone
    | cons entry rest ih =>
      intro done hdone
      rcases ih _ hdone with hset | hrest
      · rcases mem_names_set hset with rfl | hdone
        · exact .inr List.mem_cons_self
        · exact .inl hdone
      · exact .inr (List.mem_cons_of_mem _ hrest)
  exact (hfold [] hmem).resolve_left List.not_mem_nil

/-- Whatever is written one after the other, each name stays once. -/
theorem nodup_names_ofList (entries : List (String × α)) : (names (ofList entries)).Nodup := by
  have hfold : ∀ done : List (String × α), (names done).Nodup →
      (names (entries.foldl (fun done entry => set entry.1 entry.2 done) done)).Nodup := by
    induction entries with
    | nil => exact fun done hdone => hdone
    | cons entry rest ih => exact fun done hdone => ih _ (nodup_names_set entry.2 hdone)
  exact hfold [] List.nodup_nil

/-- Entries with new and distinct names come to stand behind those that are there. -/
theorem foldl_set_eq_append (hnodup : (names done ++ names entries).Nodup) :
    entries.foldl (fun done entry => set entry.1 entry.2 done) done = done ++ entries := by
  induction entries generalizing done with
  | nil => exact (List.append_nil done).symm
  | cons entry rest ih =>
    have hsplit : names done ++ names (entry :: rest) = names (done ++ [entry]) ++ names rest := by
      simp [names]
    have hnew : entry.1 ∉ names done := by
      intro hmem
      exact (List.nodup_append.mp hnodup).2.2 _ hmem _ List.mem_cons_self rfl
    rw [List.foldl_cons, set_of_not_mem entry.2 hnew, ih (hsplit ▸ hnodup), List.append_assoc]
    rfl

/-- Entries with distinct names stay as they are written. -/
theorem ofList_eq_self (hnodup : (names entries).Nodup) : ofList entries = entries :=
  @foldl_set_eq_append α [] entries hnodup

theorem length_set (name : String) (value : α) (entries : List (String × α)) :
    (set name value entries).length = entries.length + if name ∈ names entries then 0 else 1 := by
  split
  · next hmem => rw [← length_names, names_set_of_mem value hmem, length_names, Nat.add_zero]
  · next hnew => rw [set_of_not_mem value hnew, List.length_append, List.length_singleton]

private theorem length_foldl_set_le (done entries : List (String × α)) :
    (entries.foldl (fun done entry => set entry.1 entry.2 done) done).length
      ≤ done.length + entries.length := by
  induction entries generalizing done with
  | nil => exact Nat.le_refl _
  | cons entry rest ih =>
    have hrest := ih (set entry.1 entry.2 done)
    rw [length_set] at hrest
    rw [List.foldl_cons, List.length_cons]
    split at hrest <;> omega

/-- Writing entries one after the other brings in none. -/
theorem length_ofList_le (entries : List (String × α)) :
    (ofList entries).length ≤ entries.length := by
  have hle := length_foldl_set_le [] entries
  rwa [List.length_nil, Nat.zero_add] at hle

/-- Where no entry is lost, every name was new when it was written. -/
theorem foldl_set_eq_append_of_length
    (hlength : (entries.foldl (fun done entry => set entry.1 entry.2 done) done).length
      = done.length + entries.length) :
    entries.foldl (fun done entry => set entry.1 entry.2 done) done = done ++ entries := by
  induction entries generalizing done with
  | nil => exact (List.append_nil done).symm
  | cons entry rest ih =>
    have hle := length_foldl_set_le (set entry.1 entry.2 done) rest
    have hset := length_set entry.1 entry.2 done
    rw [List.foldl_cons, List.length_cons] at hlength
    by_cases hmem : entry.1 ∈ names done
    · rw [if_pos hmem] at hset
      omega
    · rw [if_neg hmem] at hset
      rw [List.foldl_cons, ih (by omega), set_of_not_mem entry.2 hmem, List.append_assoc]
      rfl

/-- Entries stay as they are written if none of them is lost. -/
theorem ofList_eq_self_of_length (hlength : (ofList entries).length = entries.length) :
    ofList entries = entries := by
  refine @foldl_set_eq_append_of_length α [] entries ?_
  rwa [List.length_nil, Nat.zero_add]

/-- Of two entries with one name the first is found. -/
theorem get?_append (name : String) (entries more : List (String × α)) :
    get? name (entries ++ more) = (get? name entries).or (get? name more) := by
  induction entries with
  | nil => rfl
  | cons entry rest ih =>
    rw [List.cons_append, get?, get?, ih]
    split <;> rfl

theorem get?_of_not_mem (hnew : name ∉ names entries) : get? name entries = none := by
  induction entries with
  | nil => rfl
  | cons entry rest ih =>
    obtain ⟨hname, hrest⟩ := List.ne_and_not_mem_of_not_mem_cons hnew
    rw [get?, if_neg (Ne.symm hname), ih hrest]

theorem get?_eq_none_iff : get? name entries = none ↔ name ∉ names entries := by
  refine ⟨fun hnone hmem => ?_, get?_of_not_mem⟩
  induction entries with
  | nil => cases hmem
  | cons entry rest ih =>
    rw [get?] at hnone
    split at hnone
    · cases hnone
    · next hne => exact ih hnone ((List.mem_cons.mp hmem).resolve_left (Ne.symm hne))

/-- Renaming finds under a name what was there, if no other name becomes that name. -/
theorem get?_map_names {β : Type} {rename : String → String} (f : α → β)
    (hname : ∀ other ∈ names entries, rename other = name ↔ other = name) :
    get? name (entries.map fun entry => (rename entry.1, f entry.2)) =
      (get? name entries).map f := by
  induction entries with
  | nil => rfl
  | cons entry rest ih =>
    obtain ⟨hfirst, hrest⟩ := List.forall_mem_cons.mp hname
    rw [List.map_cons, get?, get?, ih hrest]
    simp only [hfirst]
    split <;> rfl

/-- Values that are mapped are found under their names. -/
theorem get?_map {β : Type} (f : α → β) (name : String) (entries : List (String × α)) :
    get? name (entries.map fun entry => (entry.1, f entry.2)) = (get? name entries).map f :=
  @get?_map_names α name entries β id f fun _ _ => Iff.rfl

/-- Leaving names out takes their values away, and no other. -/
theorem get?_filter_names (kept : String → Bool) (name : String) (entries : List (String × α)) :
    get? name (entries.filter fun entry => kept entry.1) =
      if kept name then get? name entries else none := by
  induction entries with
  | nil => split <;> rfl
  | cons entry rest ih =>
    by_cases hkept : kept entry.1 = true
    · simp only [List.filter_cons, hkept, if_true, get?, ih]
      by_cases hname : entry.1 = name
      · rw [if_pos hname, if_pos hname, ← hname, if_pos hkept]
      · rw [if_neg hname, if_neg hname]
    · simp only [List.filter_cons, hkept, Bool.false_eq_true, if_false, get?, ih]
      by_cases hname : entry.1 = name
      · rw [← hname, if_neg hkept, if_neg hkept]
      · rw [if_neg hname]

/-- Where the names are distinct, their order does not matter to what is found. -/
theorem get?_reverse (hnodup : (names entries).Nodup) :
    get? name entries.reverse = get? name entries := by
  induction entries with
  | nil => rfl
  | cons entry rest ih =>
    obtain ⟨hfirst, hrest⟩ := List.nodup_cons.mp hnodup
    rw [List.reverse_cons, get?_append, ih hrest, get?, get?, get?]
    split
    · next heq =>
      rw [← heq, get?_of_not_mem hfirst, Option.none_or]
    · rw [Option.or_none]

/-- Of the values that are written for a name the last one stays, before those that were there. -/
theorem get?_foldl_set (name : String) (entries done : List (String × α)) :
    get? name (entries.foldl (fun done entry => set entry.1 entry.2 done) done) =
      (get? name entries.reverse).or (get? name done) := by
  induction entries generalizing done with
  | nil => exact Option.none_or.symm
  | cons entry rest ih =>
    rw [List.foldl_cons, ih, get?_set, List.reverse_cons, get?_append, Option.or_assoc, get?, get?]
    split <;> rfl

/-- Of two entries that are written with one name the last is found. -/
theorem get?_ofList (name : String) (entries : List (String × α)) :
    get? name (ofList entries) = get? name entries.reverse := by
  rw [ofList, get?_foldl_set, get?, Option.or_none]

theorem erase_append (name : String) (entries more : List (String × α)) :
    erase name (entries ++ more) = erase name entries ++ erase name more := List.filter_append ..

theorem erase_of_not_mem (hnew : name ∉ names entries) : erase name entries = entries := by
  refine List.filter_eq_self.mpr fun entry hentry => decide_eq_true fun heq => hnew ?_
  exact heq ▸ List.mem_map_of_mem hentry

end Written

end DocQuery.Entries
