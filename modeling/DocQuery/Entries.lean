namespace DocQuery.Entries

variable {α : Type}

/-- The value of a name, if it has one. -/
def get? (name : String) : List (String × α) → Option α
  | [] => none
  | (other, value) :: rest => if other = name then some value else get? name rest

/-- Gives a name a value in its place, or at the end if the name is new. -/
def set (name : String) (value : α) : List (String × α) → List (String × α)
  | [] => [(name, value)]
  | (other, old) :: rest =>
    if other = name then (name, value) :: rest else (other, old) :: set name value rest

/-- Gives a name a value in a list whose names ascend. -/
def insert (name : String) (value : α) : List (String × α) → List (String × α)
  | [] => [(name, value)]
  | (other, old) :: rest =>
    if name = other then (name, value) :: rest
    else if name < other then (name, value) :: (other, old) :: rest
    else (other, old) :: insert name value rest

/-- Leaves out a name. -/
def erase (name : String) (entries : List (String × α)) : List (String × α) :=
  entries.filter fun entry => entry.1 ≠ name

/-- Leaves out a name and closes the gap with the last of the entries, so that no other entry
    moves. -/
def swapErase (name : String) : List (String × α) → List (String × α)
  | [] => []
  | (other, value) :: rest =>
    if other = name then
      let kept := erase name rest
      kept.getLast?.toList ++ kept.dropLast
    else (other, value) :: swapErase name rest

/-- The names, in the order of the list. -/
def names (entries : List (String × α)) : List String := entries.map (·.1)

/-- Writes entries one after the other, so that of two with one name the later one stays. -/
def ofList (entries : List (String × α)) : List (String × α) :=
  entries.foldl (fun done entry => set entry.1 entry.2 done) []

/-- Setting a name changes what is found under that name alone. -/
theorem get?_set (name other : String) (value : α) (entries : List (String × α)) :
    get? other (set name value entries) = if name =
      other then some value else get? other entries := by
  induction entries with
  | nil => rfl
  | cons entry rest ih =>
    simp only [set]
    split
    · next h => subst h; simp only [get?]; split <;> rfl
    · next h =>
      simp only [get?, ih]
      split
      · next h' => subst h'; rw [if_neg (Ne.symm h)]
      · rfl

/-- Inserting a name changes what is found under that name alone. -/
theorem get?_insert (name other : String) (value : α) (entries : List (String × α)) :
    get? other (insert name value entries) =
      if name = other then some value else get? other entries := by
  induction entries with
  | nil => rfl
  | cons entry rest ih =>
    simp only [insert]
    split
    · next h => subst h; simp only [get?]; split <;> rfl
    · next h =>
      split
      · rfl
      · simp only [get?, ih]
        split
        · next h' => subst h'; rw [if_neg h]
        · rfl

theorem get?_erase (name other : String) (entries : List (String × α)) :
    get? other (erase name entries) = if name = other then none else get? other entries := by
  induction entries with
  | nil => simp [erase, get?]
  | cons entry rest ih =>
    simp only [erase, ne_eq, decide_not, List.filter_cons] at ih ⊢
    by_cases h : entry.1 = name
    · simp only [h, decide_true, Bool.not_true, Bool.false_eq_true, if_false, ih, get?]
      split <;> rfl
    · simp only [h, decide_false, Bool.not_false, if_true, get?, ih]
      by_cases h' : name = other
      · subst h'; simp [h]
      · simp [h']

/-- Closing the gap with the last entry changes nothing but the order. -/
theorem swapErase_perm (name : String) (entries : List (String × α)) :
    (swapErase name entries).Perm (erase name entries) := by
  induction entries with
  | nil => exact List.Perm.nil
  | cons entry rest ih =>
    obtain ⟨other, value⟩ := entry
    by_cases h : other = name
    · have herase : erase name ((other, value) :: rest) = erase name rest := by simp [erase, h]
      rw [swapErase, if_pos h, herase]
      rcases List.eq_nil_or_concat (erase name rest) with hnil | ⟨first, last, hlast⟩
      · simp [hnil]
      · rw [hlast]
        simpa using (List.perm_append_singleton last first).symm
    · have herase : erase name ((other, value) :: rest) = (other, value) :: erase name rest := by
        simp [erase, h]
      rw [swapErase, if_neg h, herase]
      exact ih.cons _

end DocQuery.Entries
