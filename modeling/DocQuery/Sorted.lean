namespace DocQuery.Sorted

variable {α : Type} [Ord α]

/-- Puts a member in its place, unless it is there already. -/
def insert (a : α) : List α → List α
  | [] => [a]
  | b :: rest =>
    match compare a b with
    | .lt => a :: b :: rest
    | .eq => b :: rest
    | .gt => b :: insert a rest

/-- The members of a list, each once and in ascending order. -/
def ofList (as : List α) : List α := as.foldr insert []

theorem mem_insert [Std.LawfulEqOrd α] {a b : α} {as : List α} :
    b ∈ insert a as ↔ b = a ∨ b ∈ as := by
  induction as with
  | nil => simp [insert]
  | cons c rest ih =>
    simp only [insert]
    split
    · simp
    · next h =>
      have := Std.LawfulEqOrd.eq_of_compare h
      subst this
      simp
    · simp only [List.mem_cons, ih]
      constructor
      · rintro (h | h | h) <;> simp [h]
      · rintro (h | h | h) <;> simp [h]

/-- The set of a list has the same members. -/
theorem mem_ofList [Std.LawfulEqOrd α] {b : α} {as : List α} : b ∈ ofList as ↔ b ∈ as := by
  induction as with
  | nil => simp [ofList]
  | cons a rest ih => simp [ofList, mem_insert] at ih ⊢; simp [ih]

theorem pairwise_insert [Std.TransOrd α] [Std.LawfulEqOrd α] {a : α} {as : List α}
    (has : as.Pairwise fun b c => compare b c = .lt) :
    (insert a as).Pairwise fun b c => compare b c = .lt := by
  induction has with
  | nil => exact List.pairwise_singleton _ _
  | @cons b rest hb hrest ih =>
    rw [insert]
    split
    · next hlt =>
      refine .cons (fun c hc => ?_) (.cons hb hrest)
      rcases List.mem_cons.mp hc with rfl | hc
      · exact hlt
      · exact Std.TransCmp.lt_trans hlt (hb c hc)
    · exact .cons hb hrest
    · next hgt =>
      refine .cons (fun c hc => ?_) ih
      rcases mem_insert.mp hc with rfl | hc
      · exact Std.OrientedCmp.gt_iff_lt.mp hgt
      · exact hb c hc

/-- The members of a set ascend. -/
theorem pairwise_ofList [Std.TransOrd α] [Std.LawfulEqOrd α] (as : List α) :
    (ofList as).Pairwise fun b c => compare b c = .lt := by
  induction as with
  | nil => exact .nil
  | cons a rest ih => exact pairwise_insert ih

/-- No member is listed twice, as each comes strictly before those after it. -/
theorem nodup_ofList [Std.TransOrd α] [Std.LawfulEqOrd α] (as : List α) : (ofList as).Nodup := by
  refine (pairwise_ofList as).imp fun {a b} hlt heq => ?_
  rw [heq, Std.ReflOrd.compare_self] at hlt
  cases hlt

end DocQuery.Sorted
