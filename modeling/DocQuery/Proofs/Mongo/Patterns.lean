import DocQuery.Mongo.Expression
import DocQuery.Proofs.Text.Replacement

namespace DocQuery.Mongo

namespace Expression

variable {atStart : Bool} {e : Expression}

/-- A character other than NUL is read back from its expression. -/
theorem read?_escapeChar {c : Char} (hc : c ≠ '\x00') (rest : List Char) :
    read? (Pattern.escapeChar c ++ rest) = (read? rest).map (.char c :: ·) := by
  unfold Pattern.escapeChar
  by_cases hspecial : c ∈ Pattern.special
  · have hescaped : Pattern.special.all (fun c => escaped? c == some (.char c)) = true := by decide
    have hatom : escaped? c = some (.char c) :=
      beq_iff_eq.mp (List.all_eq_true.mp hescaped c hspecial)
    rw [if_pos hspecial, List.cons_append, List.singleton_append, read?, hatom]
    rfl
  · have hno : ∀ other ∈ '^' :: '$' :: operators, c ≠ other := by
      have hlisted : ('^' :: '$' :: operators).all
          (fun c => c == '\x00' || Pattern.special.contains c) = true := by
        decide
      rintro other hother rfl
      have hother := List.all_eq_true.mp hlisted c hother
      simp [hc, hspecial] at hother
    have hplain : plain? c = some (.char c) := by
      obtain ⟨hstart, hfinish, hoperator⟩ : c ≠ '^' ∧ c ≠ '$' ∧ c ∉ operators :=
        ⟨hno _ (by simp), hno _ (by simp), fun hmem => hno c (by simp [hmem]) rfl⟩
      rw [plain?, if_neg hstart, if_neg hfinish, if_neg hoperator]
    have hbackslash : c ≠ '\\' := hno _ (by simp [operators])
    rw [if_neg hspecial, List.singleton_append, read?, hplain]
    · rfl
    · exact fun _ _ heq => absurd heq hbackslash

/-- A text is read back from its expression. -/
theorem read?_escapeChars {text : List Char} (htext : '\x00' ∉ text) (rest : List Char) :
    read? (text.flatMap Pattern.escapeChar ++ rest) =
      (read? rest).map (text.map Atom.char ++ ·) := by
  induction text with
  | nil => exact Option.map_id.symm ▸ rfl
  | cons c text ih =>
    obtain ⟨hc, htext⟩ := List.ne_and_not_mem_of_not_mem_cons htext
    rw [List.flatMap_cons, List.append_assoc, read?_escapeChar (Ne.symm hc),
      ih htext, Option.map_map]
    rfl

/-- Characters that are asked for stand at the beginning, in front of what is asked for next. -/
theorem holdsAt_chars {text cs : List Char} :
    holdsAt atStart (text.map Atom.char ++ e) cs = true ↔
      ∃ after, cs = text ++ after ∧ holdsAt (atStart && text.isEmpty) e after = true := by
  induction text generalizing atStart cs with
  | nil => simp
  | cons c text ih =>
    rw [List.map_cons, List.cons_append, List.isEmpty_cons, Bool.and_false]
    cases cs with
    | nil => exact iff_of_false Bool.false_ne_true fun ⟨_, hnever, _⟩ => nomatch hnever
    | cons d cs =>
      rw [holdsAt, Bool.and_eq_true, beq_iff_eq, ih, Bool.false_and]
      constructor
      · rintro ⟨rfl, after, rfl, hafter⟩
        exact ⟨after, rfl, hafter⟩
      · rintro ⟨after, hcs, hafter⟩
        obtain ⟨rfl, rfl⟩ := List.cons.inj hcs
        exact ⟨rfl, after, rfl, hafter⟩

/-- An expression is searched at every place of a string, of which only the first is the start. -/
theorem holdsFrom_iff {cs : List Char} :
    holdsFrom atStart e cs = true ↔
      ∃ before after, cs = before ++ after ∧
        holdsAt (atStart && before.isEmpty) e after = true := by
  induction cs generalizing atStart with
  | nil =>
    rw [holdsFrom]
    constructor
    · exact fun hholds => ⟨[], [], rfl, by simpa using hholds⟩
    · rintro ⟨before, after, hnil, hholds⟩
      obtain ⟨rfl, rfl⟩ := List.append_eq_nil_iff.mp hnil.symm
      simpa using hholds
  | cons c rest ih =>
    rw [holdsFrom, Bool.or_eq_true, ih]
    constructor
    · rintro (hhere | ⟨before, after, rfl, hlater⟩)
      · exact ⟨[], c :: rest, rfl, by simpa using hhere⟩
      · exact ⟨c :: before, after, rfl, by simpa using hlater⟩
    · rintro ⟨before, after, hcs, hholds⟩
      cases before with
      | nil =>
        obtain rfl : c :: rest = after := hcs
        exact .inl (by simpa using hholds)
      | cons d before =>
        obtain ⟨rfl, rfl⟩ := List.cons.inj hcs
        exact .inr ⟨before, after, rfl, by simpa using hholds⟩

end Expression

namespace Pattern

variable {p : Pattern} {before after : List Char}

/-- What the expression of a pattern asks for. -/
def atoms (p : Pattern) : Expression :=
  (if p.atStart then [.start] else []) ++
    (p.text.toList.map .char ++ if p.atEnd then [.finish] else [])

/-- The expression of a pattern is read as the characters of its text and its anchors, whatever the
    text holds. -/
theorem read?_expression (htext : '\x00' ∉ p.text.toList) :
    Expression.read? p.expression.toList = some p.atoms := by
  have hend : Expression.read? (if p.atEnd then ['$'] else []) =
      some (if p.atEnd then [.finish] else []) := by
    cases p.atEnd <;> rfl
  have hrest := Expression.read?_escapeChars htext (if p.atEnd then ['$'] else [])
  rw [hend, Option.map_some] at hrest
  rw [expression, String.toList_ofList, List.append_assoc, atoms]
  cases p.atStart with
  | false => exact hrest
  | true =>
    have hstart : Expression.read?
        ('^' :: (p.text.toList.flatMap escapeChar ++ if p.atEnd then ['$'] else [])) =
        (Expression.read? (p.text.toList.flatMap escapeChar ++ if p.atEnd then ['$'] else [])).map
          (.start :: ·) := rfl
    rw [hrest] at hstart
    exact hstart

/-- Whether the text of a pattern may stand between these beginnings and ends of a string. -/
def StandsBetween (p : Pattern) (before after : List Char) : Prop :=
  (p.atStart = true → before = []) ∧ (p.atEnd = true → after = [] ∨ after = ['\n'])

/-- The atoms of a pattern ask for its text, with nothing before it or after it where it is
    anchored. -/
theorem holdsAt_atoms {atStart : Bool} {cs : List Char} :
    Expression.holdsAt atStart p.atoms cs = true ↔ (p.atStart = true → atStart = true) ∧
      ∃ after, cs = p.text.toList ++ after ∧
        (p.atEnd = true → after = [] ∨ after = ['\n']) := by
  have hfinish : ∀ (atStart : Bool) (after : List Char),
      Expression.holdsAt atStart (if p.atEnd then [.finish] else []) after = true ↔
        (p.atEnd = true → after = [] ∨ after = ['\n']) := by
    intro atStart after
    cases p.atEnd with
    | false => simp [Expression.holdsAt]
    | true => simp [Expression.holdsAt]
  have hchars : ∀ atStart : Bool, Expression.holdsAt atStart
      (p.text.toList.map .char ++ if p.atEnd then [.finish] else []) cs = true ↔
        ∃ after, cs = p.text.toList ++ after ∧
          (p.atEnd = true → after = [] ∨ after = ['\n']) := by
    intro atStart
    rw [Expression.holdsAt_chars]
    simp only [hfinish]
  unfold atoms
  cases p.atStart with
  | false => exact (hchars atStart).trans (and_iff_right Bool.noConfusion).symm
  | true =>
    rw [if_pos rfl, List.singleton_append, Expression.holdsAt, Bool.and_eq_true, hchars]
    exact and_congr_left' (imp_iff_right rfl).symm

/-- What is found for the expression of a pattern is the text of the pattern, where it may stand. -/
theorem finds_expression_iff (htext : '\x00' ∉ p.text.toList) {s : String} :
    Expression.finds p.expression s = true ↔
      ∃ before after, s.toList = before ++ p.text.toList ++ after ∧
        p.StandsBetween before after := by
  rw [Expression.finds, read?_expression htext, Option.any_some, Expression.holdsFrom_iff]
  simp only [holdsAt_atoms, Bool.true_and, List.isEmpty_iff]
  constructor
  · rintro ⟨before, rest, hs, hstart, after, rfl, hend⟩
    exact ⟨before, after, by rw [hs, List.append_assoc], hstart, hend⟩
  · rintro ⟨before, after, hs, hstart, hend⟩
    exact ⟨before, p.text.toList ++ after, by rw [hs, List.append_assoc],
      hstart, after, rfl, hend⟩

/-- What a pattern tied to the end takes for all of a string is the string up to its end or up to a
    last line break. -/
theorem mem_endings_iff {whole cs : List Char} :
    whole ∈ endings cs ↔ ∃ after, cs = whole ++ after ∧
      (after = [] ∨ after = ['\n']) := by
  unfold endings
  rw [List.mem_cons]
  constructor
  · rintro (rfl | hbreak)
    · exact ⟨[], (List.append_nil _).symm, .inl rfl⟩
    · split at hbreak
      · next hlast =>
        obtain ⟨line, rfl⟩ := List.getLast?_eq_some_iff.mp hlast
        rw [List.mem_singleton, List.dropLast_concat] at hbreak
        exact ⟨['\n'], hbreak ▸ rfl, .inr rfl⟩
      · cases hbreak
  · rintro ⟨after, rfl, rfl | rfl⟩
    · exact .inl (List.append_nil _).symm
    · refine .inr ?_
      rw [if_pos (List.getLast?_concat ..), List.mem_singleton, List.dropLast_concat]

/-- A pattern accepts the strings in which its text stands where it may. -/
theorem accepts_iff {s : String} :
    p.accepts id s = true ↔
      ∃ before after, s.toList = before ++ p.text.toList ++ after ∧
        p.StandsBetween before after := by
  obtain ⟨atStart, text, atEnd⟩ := p
  simp only [accepts, StandsBetween, List.map_id]
  cases atStart with
  | false =>
    cases atEnd with
    | false =>
      simp only [Text.occursIn_iff, Bool.false_eq_true, false_implies, and_self, and_true]
      exact exists₂_congr fun _ _ => eq_comm
    | true =>
      simp only [List.any_eq_true, mem_endings_iff, decide_eq_true_eq, Bool.false_eq_true,
        false_implies, true_and, true_implies]
      constructor
      · rintro ⟨_, ⟨after, hs, hend⟩, before, rfl⟩
        exact ⟨before, after, hs, hend⟩
      · rintro ⟨before, after, hs, hend⟩
        exact ⟨before ++ text.toList, ⟨after, hs, hend⟩, before, rfl⟩
  | true =>
    cases atEnd with
    | false =>
      simp only [decide_eq_true_eq, Bool.false_eq_true, false_implies, and_true, true_implies]
      constructor
      · rintro ⟨after, hs⟩
        exact ⟨[], after, hs.symm, rfl⟩
      · rintro ⟨_, after, hs, rfl⟩
        exact ⟨after, hs.symm⟩
    | true =>
      simp only [List.any_eq_true, mem_endings_iff, beq_iff_eq, true_implies]
      constructor
      · rintro ⟨_, ⟨after, hs, hend⟩, rfl⟩
        exact ⟨[], after, hs, rfl, hend⟩
      · rintro ⟨_, after, hs, rfl, hend⟩
        exact ⟨text.toList, ⟨after, hs, hend⟩, rfl⟩

/-- The server finds with the expression of a pattern what the pattern accepts. -/
theorem finds_expression (htext : '\x00' ∉ p.text.toList) (s : String) :
    Expression.finds p.expression s = p.accepts id s := by
  rw [Bool.eq_iff_iff, finds_expression_iff htext, accepts_iff]

end Pattern

end DocQuery.Mongo
