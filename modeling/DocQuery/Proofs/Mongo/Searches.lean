import DocQuery.Proofs.Mongo.Flat
import DocQuery.Proofs.Mongo.Patterns
import DocQuery.Proofs.Predicate.LetterCase

namespace DocQuery

namespace Operator

/-- Whether an operator finds no ending in a stored text because of a line break after it. -/
def StopsAtBreak (op : Operator) (stored needle : String) : Prop :=
  op = endsWith ∧ ¬ needle.toList <:+ stored.toList ∧
    ∃ line, stored.toList = line ++ ['\n'] ∧ needle.toList <:+ line

private theorem StopsAtBreak.not_textHolds {op : Operator} {stored needle : String}
    (hstops : op.StopsAtBreak stored needle) :
    ¬ op.textHolds stored needle = true := by
  obtain ⟨rfl, hnone, -⟩ := hstops
  exact fun hholds => hnone (of_decide_eq_true hholds)

/-- The pattern that is sent for an operator with regard to case. -/
def pattern (op : Operator) (text : String) : Mongo.Pattern :=
  ⟨op = startsWith, text, op = endsWith⟩

variable {op : Operator}

private theorem standsBetween_iff {text : String} {before after : List Char} :
    (op.pattern text).StandsBetween before after ↔
      (op = startsWith → before = []) ∧ (op = endsWith → after = [] ∨ after = ['\n']) := by
  simp only [pattern, Mongo.Pattern.StandsBetween, decide_eq_true_eq]

/-- The pattern of an operator accepts what the operator finds, and an ending in front of a last
    line break. -/
theorem accepts_pattern_iff (hop : op ∈ cased) (stored needle : String) :
    (op.pattern needle).accepts id stored = true ↔
      op.textHolds stored needle = true ∨ op.StopsAtBreak stored needle := by
  rw [Mongo.Pattern.accepts_iff, textHolds_iff hop]
  simp only [standsBetween_iff]
  constructor
  · rintro ⟨before, after, hstored, hstart, hend⟩
    by_cases hafter : op = endsWith → after = []
    · exact .inl ⟨before, after, ⟨hstart, hafter⟩, hstored⟩
    · obtain ⟨rfl, hbreak⟩ := Classical.not_imp.mp hafter
      obtain rfl : after = ['\n'] := (hend rfl).resolve_left hbreak
      by_cases hsuffix : needle.toList <:+ stored.toList
      · obtain ⟨earlier, hearlier⟩ := hsuffix
        refine .inl ⟨earlier, [], ⟨nofun, fun _ => rfl⟩, ?_⟩
        rw [List.append_nil]
        exact hearlier.symm
      · exact .inr ⟨rfl, hsuffix, before ++ needle.toList, hstored, List.suffix_append _ _⟩
  · rintro (⟨before, after, ⟨hstart, hend⟩, hstored⟩ |
      ⟨rfl, -, line, hstored, before, rfl⟩)
    · exact ⟨before, after, hstored, hstart, fun hop => .inl (hend hop)⟩
    · exact ⟨before, ['\n'], hstored, nofun, fun _ => .inr rfl⟩

end Operator

namespace Mongo

open Operator (cased)

variable {op : Operator} {stored : List (String × Bson)} {field text : String}

namespace Query

/-- A search by an expression and the pattern it was sent for find the same strings. -/
theorem meets_pattern {p : Pattern} (htext : '\x00' ∉ p.text.toList) (value : Option Bson) :
    meets value (Filter.conditionValue (.pattern p false)) =
      (Condition.pattern p false).holds id value := by
  have hfinds : ∀ s, Expression.finds p.expression s = p.accepts id s :=
    Pattern.finds_expression htext
  rw [Filter.conditionValue, if_neg Bool.false_ne_true]
  simp only [meets, hfinds]
  rfl

end Query

namespace Filter

/-- A test on texts with regard to case is sent as a pattern, or as a pattern beside a look at the
    elements of an array. -/
theorem ofTest_cased (hop : op ∈ cased) (field text : String) :
    ofTest field op (.text text) = .on (storedField field) (.pattern (op.pattern text) false) ∨
      ∃ values, ofTest field op (.text text) =
        .any [.on (storedField field) (.pattern (op.pattern text) false),
          .on (storedField field) (.element values)] := by
  rcases Operator.eq_of_mem_cased hop with rfl | rfl | rfl
  · generalize hcandidates : (values field false (.text text)).filter
      (fun v => !v.isNull) = candidates
    have hopen : ofTest field .contains (.text text) =
        if candidates.isEmpty
          then .on (storedField field) (.pattern (Operator.contains.pattern text) false)
        else .any [.on (storedField field) (.pattern (Operator.contains.pattern text) false),
          .on (storedField field) (.element candidates)] := hcandidates ▸ rfl
    rw [hopen]
    split
    · exact .inl rfl
    · exact .inr ⟨candidates, rfl⟩
  · exact .inl rfl
  · exact .inl rfl

end Filter

/-- The filter document that is sent for a test on texts matches what its filter matches. -/
theorem searches_document_ofTest (hop : op ∈ cased) (htext : '\x00' ∉ text.toList) :
    Query.searches stored (Filter.document (Filter.ofTest field op (.text text))) =
      (Filter.ofTest field op (.text text)).accepts id stored := by
  have hpattern :=
    Query.meets_pattern (p := op.pattern text) htext (Entries.get? (storedField field) stored)
  rcases Filter.ofTest_cased hop field text with hone | ⟨values, hboth⟩
  · rw [hone]
    exact hpattern
  · rw [hboth]
    have hread : Query.searches stored (Filter.document (.any
        [.on (storedField field) (.pattern (op.pattern text) false),
          .on (storedField field) (.element values)])) =
        (Query.meets (Entries.get? (storedField field) stored)
            (Filter.conditionValue (.pattern (op.pattern text) false)) ||
          ((Condition.element values).holds id (Entries.get? (storedField field) stored) ||
            false)) := rfl
    rw [hread, hpattern]
    rfl

private theorem accepts_ofTest_str (hop : op ∈ cased) {s : String}
    (hget : Entries.get? (storedField field) stored = some (.str s)) :
    (Filter.ofTest field op (.text text)).accepts id stored = (op.pattern text).accepts id s := by
  have hpattern : (Condition.pattern (op.pattern text) false).holds id (some (.str s)) =
      (op.pattern text).accepts id s := Bool.or_false _
  rcases Filter.ofTest_cased hop field text with hone | ⟨values, hboth⟩
  · rw [hone, Filter.accepts, hget, hpattern]
  · have helement : (Condition.element values).holds id (some (.str s)) = false := rfl
    rw [hboth, Filter.accepts, Filter.acceptsAny, Filter.acceptsAny, Filter.acceptsAny,
      Filter.accepts, Filter.accepts, hget, hpattern, helement, Bool.or_false, Bool.or_false]

/-- A text under a plain name, which no other name of the data is stored as, is stored as it is
    under this name. -/
theorem get?_of_ofDocument_str {d : Document} (hdistinct : (Entries.names d.data).Nodup)
    (hstored : Stored.ofDocument d = .ok stored) (hplain : Key.IsPlain field)
    (halone : ∀ name ∈ Entries.names d.data, Key.escape name = field → name = field)
    {s : String} (hfield : Entries.get? field d.data = some (.str s)) :
    Entries.get? field stored = some (.str s) := by
  obtain ⟨unescaped, hwritten, hget⟩ :=
    exists_get?_of_ofDocument hdistinct hstored hplain halone hfield
  cases hwritten
  exact hget

/-- A document with a text in a field of its data, and whatever else in others, is found by the
    filter document for a test on the field when the test holds of the document, or when the text
    ends in a line break and has the ending that is looked for in front of that. So the two agree
    exactly unless it is only there. -/
theorem searches_document_iff {d : Document} (hdistinct : (Entries.names d.data).Nodup)
    {field : String} (hplain : Key.IsPlain field)
    (halone : ∀ name ∈ Entries.names d.data, Key.escape name = field → name = field)
    (hown : field ∉ [Document.idField, Document.createdField, Document.updatedField]) {s : String}
    (hfield : Entries.get? field d.data = some (.str s)) {op : Operator} (hop : op ∈ cased)
    {text : String} (htext : '\x00' ∉ text.toList) :
    ((∃ stored, Stored.ofDocument d = .ok stored) ↔ (Json.obj d.data).FitsInt64) ∧
      ∀ stored, Stored.ofDocument d = .ok stored →
        (Query.searches stored
          (Filter.document (Filter.ofPredicate (.test field op (.text text)))) = true ↔
          (Predicate.test field op (.text text)).accepts d = true ∨ op.StopsAtBreak s text) ∧
        (Query.searches stored
          (Filter.document (Filter.ofPredicate (.test field op (.text text)))) =
          (Predicate.test field op (.text text)).accepts d ↔ ¬ op.StopsAtBreak s text) := by
  refine ⟨Stored.exists_ofDocument_iff, fun stored hstored => ?_⟩
  obtain ⟨hdata, hname⟩ := field?_of_not_mem hown d
  have hget : Entries.get? (storedField field) stored = some (.str s) := by
    rw [hname, hplain.escape_eq]
    exact get?_of_ofDocument_str hdistinct hstored hplain halone hfield
  have haccepts : (Predicate.test field op (.text text)).accepts d = op.textHolds s text := by
    rw [Predicate.accepts, hdata, hfield, Operator.holds_str (.inl hop)]
    rfl
  have hsearches : Query.searches stored
      (Filter.document (Filter.ofPredicate (.test field op (.text text)))) = true ↔
      op.textHolds s text = true ∨ op.StopsAtBreak s text := by
    rw [Filter.ofPredicate, searches_document_ofTest hop htext, accepts_ofTest_str hop hget,
      Operator.accepts_pattern_iff hop]
  rw [haccepts]
  refine ⟨hsearches, ?_⟩
  rw [Bool.eq_iff_iff, hsearches, or_iff_left_iff_imp]
  exact ⟨fun himp hstops => hstops.not_textHolds (himp hstops),
    fun hnot hstops => absurd hstops hnot⟩

/-- A post whose title has characters in it that mean something in an expression, and a line break
    at its end. -/
def summed : Document where
  id := "p1"
  collection := "posts"
  data := [("title", .str "is 1+1=2?\n"), ("a.b", .arr [.null])]
  created := Instant.epoch
  updated := Instant.epoch

/-- An ending with the line break is found by the test and by the filter. -/
theorem searches_document_summed :
    (Entries.names summed.data).Nodup ∧ Key.IsPlain "title" ∧
      (∀ name ∈ Entries.names summed.data, Key.escape name = "title" → name = "title") ∧
      "title" ∉ [Document.idField, Document.createdField, Document.updatedField] ∧
      Entries.get? "title" summed.data = some (.str "is 1+1=2?\n") ∧
      Operator.endsWith ∈ cased ∧
      '\x00' ∉ "1+1=2?\n".toList ∧ ∃ stored, Stored.ofDocument summed = .ok stored ∧
        Query.searches stored (Filter.document (Filter.ofPredicate
          (.test "title" .endsWith (.text "1+1=2?\n")))) = true := by
  have hdistinct : (Entries.names summed.data).Nodup := by decide
  have hplain : Key.IsPlain "title" := by decide
  have halone : ∀ name ∈ Entries.names summed.data, Key.escape name = "title" →
      name = "title" := by decide
  have hown : "title" ∉ [Document.idField, Document.createdField,
      Document.updatedField] := by decide
  have hfield : Entries.get? "title" summed.data = some (.str "is 1+1=2?\n") := by decide
  have hop : Operator.endsWith ∈ cased := by decide
  have htext : '\x00' ∉ "1+1=2?\n".toList := by decide
  obtain ⟨hstorable, hagree⟩ :=
    searches_document_iff hdistinct hplain halone hown hfield hop htext
  obtain ⟨stored, hstored⟩ := hstorable.mpr (by decide)
  have haccepts : (Predicate.test "title" .endsWith (.text "1+1=2?\n")).accepts summed =
      true := by decide +kernel
  exact ⟨hdistinct, hplain, halone, hown, hfield, hop, htext, stored, hstored,
    (hagree stored hstored).1.mpr (.inl haccepts)⟩

/-- A post whose title ends in a line break. -/
def finished : Document where
  id := "p1"
  collection := "posts"
  data := [("title", .str "Done\n")]
  created := Instant.epoch
  updated := Instant.epoch

/-- The title does not end in what stands in front of the line break, but the filter for this test
    finds it. -/
theorem searches_document_finished :
    Key.IsPlain "title" ∧ finished.field? "title" = some (.str "Done\n") ∧
      ∃ stored, Stored.ofDocument finished = .ok stored ∧
        Entries.get? (storedField "title") stored = some (.str "Done\n") ∧
        (Predicate.test "title" .endsWith (.text "Done")).accepts finished = false ∧
        Query.searches stored (Filter.document (Filter.ofPredicate
          (.test "title" .endsWith (.text "Done")))) = true :=
  ⟨by decide, rfl, _, rfl, rfl, by decide +kernel, by decide +kernel⟩

end Mongo

end DocQuery
