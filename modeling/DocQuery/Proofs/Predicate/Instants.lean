import DocQuery.Proofs.Document.Instants
import DocQuery.Proofs.Mongo.Query
import DocQuery.Proofs.Predicate.Operators

namespace DocQuery

namespace Operator

/-- The operators that compare by equality or by order. -/
def comparisons : List Operator := .eq :: bounds

/-- Whether a comparison holds of values in this order. -/
def relates (op : Operator) (ordering : Ordering) : Bool :=
  if op = .eq then ordering == .eq else op.boundHolds ordering

/-- A comparison of a stored string with a text is that of the two strings. -/
theorem holds_str_text {op : Operator} (hop : op ∈ comparisons) (stored s : String) :
    op.holds (some (.str stored)) (.text s) = op.relates (compare stored s) := by
  rcases List.mem_cons.mp hop with rfl | hop
  · have hequals : eq.holds (some (.str stored)) (.text s) = (s == stored || false) := rfl
    rw [hequals, Bool.or_false, relates, if_pos rfl, Bool.eq_iff_iff, beq_iff_eq, beq_iff_eq,
      Std.LawfulEqOrd.compare_eq_iff_eq, eq_comm]
  · have hne : op ≠ eq := by
      rintro rfl
      exact absurd hop (by decide)
    rw [holds_bound hop, relates, if_neg hne]
    rfl

private theorem relates_lt_eq_relates_gt_iff {op : Operator} (hop : op ∈ comparisons) :
    op.relates .lt = op.relates .gt ↔ op = eq := by
  simp only [comparisons, bounds, List.mem_cons, List.not_mem_nil, or_false] at hop
  rcases hop with rfl | rfl | rfl | rfl | rfl <;> decide

end Operator

namespace Mongo

/-- A comparison of an instant is sent as the comparison of a date. -/
theorem accepts_document_ofTest_instant {field s : String} {op : Operator} {t u : Instant}
    {stored : List (String × Bson)} (hfield : isInstantField field = true)
    (hop : op ∈ Operator.comparisons) (hs : Instant.readRfc3339? s = some t)
    (hstored : Entries.get? (storedField field) stored = some (.date u.epochMillis)) :
    Query.accepts stored (Filter.document (Filter.ofTest field op (.text s))) =
      op.relates (compare u.epochMillis t.epochMillis) := by
  have hvalues : ∀ ordered, Filter.values field ordered (.text s) = [.date t.epochMillis] := by
    intro ordered
    have hbound : Instant.readBound? s = some t := by rw [Instant.readBound?, hs]; rfl
    rw [Filter.values, if_pos hfield]
    simp [Literal.items, Literal.asText, hbound]
  simp only [Operator.comparisons, Operator.bounds, List.mem_cons,
    List.not_mem_nil, or_false] at hop
  rw [Query.accepts_document _
    (Filter.compares_ofTest (by rcases hop with rfl | rfl | rfl | rfl | rfl <;> decide))]
  rcases hop with rfl | rfl | rfl | rfl | rfl <;>
    simp [Filter.ofTest, hvalues, Filter.boundOf?, Bson.isNull, Filter.accepts, hstored,
      Condition.holds, Condition.seen,
      Condition.isAmong, Bson.sameValue, Bson.order?, Operator.relates,
      Operator.boundHolds, Bound.admits]

end Mongo

namespace Predicate

open Instant (IsWrittenDay readRfc3339?)

variable {d : Document} {field s : String} {op : Operator} {t : Instant}

/-- A test of an instant compares its text with the text of the literal. -/
theorem accepts_test_instant (hfield : Mongo.isInstantField field = true)
    (hop : op ∈ Operator.comparisons) :
    accepts d (.test field op (.text s)) = op.relates (compare (d.instant field).text s) := by
  rw [accepts, Document.field?_of_isInstantField hfield, Operator.holds_str_text hop]

/-- A literal that is written as the text of its instant is compared with by time, except that an
    instant after year 9999 is taken for one before it. -/
theorem accepts_test_text_iff (hfield : Mongo.isInstantField field = true)
    (hop : op ∈ Operator.comparisons) (hd : (d.instant field).IsProper)
    (ht : readRfc3339? t.text = some t) :
    accepts d (.test field op (.text t.text)) = op.relates (compare (d.instant field) t) ↔
      (d.instant field).date.year ≤ 9999 ∨ op = .eq := by
  obtain ⟨hproper, day, hday⟩ := Instant.readRfc3339?_spec ht
  obtain ⟨-, hle, hle'⟩ := Instant.eq_of_readRfc3339?_text hproper ht
  rw [accepts_test_instant hfield hop]
  by_cases hyear : (d.instant field).date.year ≤ 9999
  · rw [Instant.compare_text hd hproper hyear hle hle']
    exact iff_of_true rfl (.inl hyear)
  · have hlater : t.date.year < (d.instant field).date.year := by omega
    have hne : (d.instant field).date ≠ t.date := fun heq => by rw [heq] at hlater; omega
    have hgt : compare (d.instant field) t = .gt := by
      rw [Instant.compare_of_date_ne hne, Date.compare_of_year_gt hlater]
    rw [hday.compare_text_of_signed (.inr (by omega)), hgt,
      Operator.relates_lt_eq_relates_gt_iff hop]
    exact ⟨.inr, fun h => h.resolve_left hyear⟩

/-- A literal that is written in another way equals no instant, its own included. -/
theorem accepts_test_eq_iff (hfield : Mongo.isInstantField field = true)
    (hd : (d.instant field).IsProper) (hs : readRfc3339? s = some t) (hne : s ≠ t.text) :
    accepts d (.test field .eq (.text s)) = Operator.eq.relates (compare (d.instant field) t) ↔
      d.instant field ≠ t := by
  have hnever : Operator.eq.relates (compare (d.instant field).text s) = false := by
    refine beq_eq_false_iff_ne.mpr fun heq => ?_
    obtain rfl := Std.LawfulEqOrd.eq_of_compare heq
    exact hne (congrArg Instant.text (Instant.eq_of_readRfc3339?_text hd hs).1)
  rw [accepts_test_instant hfield (by decide), hnever, eq_comm, ne_eq, ← Instant.compare_eq_iff]
  exact beq_eq_false_iff_ne

/-- A comparison of an instant with a text that names one. It follows the time if the text is
    written as that of the instant it names, and the instant of the document is not after year 9999.
    A text that is written in another way equals no instant; it is compared with by the day that it
    begins with and then by what stands behind that, which orders by time the instants that are
    neither of this day nor of that of the instant it names. The filter that is sent to MongoDB
    compares the milliseconds however the text is written. -/
theorem accepts_test_instant_iff {collection : String} {value : Json} {fresh : Fresh}
    (hnow : fresh.now.IsProper) (hd : Document.ofJson collection value fresh = .ok d)
    (hfield : Mongo.isInstantField field = true) (hop : op ∈ Operator.comparisons)
    (hs : readRfc3339? s = some t) :
    (s = t.text →
      (accepts d (.test field op (.text s)) = op.relates (compare (d.instant field) t) ↔
        (d.instant field).date.year ≤ 9999 ∨ op = .eq)) ∧
    (s ≠ t.text →
      (accepts d (.test field .eq (.text s)) = Operator.eq.relates (compare (d.instant field) t) ↔
        d.instant field ≠ t)) ∧
    (∃ day rest, IsWrittenDay s t day ∧ s.toList = Instant.dayText day ++ rest ∧
      ((d.instant field).date.year ≤ 9999 →
        accepts d (.test field op (.text s)) = op.relates
          ((compare (d.instant field).date day).then (compare (d.instant field).clockText rest)) ∧
        ((d.instant field).date ≠ day → (d.instant field).date ≠ t.date →
          accepts d (.test field op (.text s)) = op.relates (compare (d.instant field) t)))) ∧
    (∀ stored, Entries.get? (Mongo.storedField field) stored =
      some (.date (d.instant field).epochMillis) →
      Mongo.Query.accepts stored (Mongo.Filter.document (Mongo.Filter.ofTest field op (.text s))) =
        op.relates (compare (d.instant field).epochMillis t.epochMillis)) ∧
    ((d.instant field).milli < 1000 → t.milli < 1000 →
      compare (d.instant field).epochMillis t.epochMillis = compare (d.instant field) t) := by
  have hproper := Document.isProper_of_ofJson hnow hd field
  obtain ⟨-, day, hday⟩ := Instant.readRfc3339?_spec hs
  obtain ⟨rest, hrest⟩ := hday.starts
  refine ⟨?_, accepts_test_eq_iff hfield hproper hs,
    ⟨day, rest, hday, hrest.symm, fun hyear => ⟨?_, fun hne hne' => ?_⟩⟩,
    fun stored hstored => Mongo.accepts_document_ofTest_instant hfield hop hs hstored,
    Instant.compare_epochMillis⟩
  · rintro rfl
    exact accepts_test_text_iff hfield hop hproper hs
  · rw [accepts_test_instant hfield hop, hday.compare_text_eq_then hyear hrest.symm]
  · rw [accepts_test_instant hfield hop, hday.compare_text hyear hne hne']

/-- The object of a post whose making is named with an offset. -/
def offsetObject : Json :=
  .obj [("id", .str "p1"), ("created_at", .str "2024-02-29T23:30:00.5-02:00")]

/-- The post that is read from the object. -/
def offsetPost : Document :=
  ⟨"p1", "posts", [], ⟨1709256600, 500, by decide⟩, ⟨1709256600, 500, by decide⟩⟩

/-- The making of the post is at both bounds of the text that names it in UTC. -/
theorem accepts_test_instant_offset :
    Document.ofJson "posts" offsetObject ⟨"new", Instant.epoch⟩ = .ok offsetPost ∧
    readRfc3339? "2024-03-01T01:30:00.500Z" = some offsetPost.created ∧
    accepts offsetPost (.test "created_at" .lte (.text "2024-03-01T01:30:00.500Z")) = true ∧
    accepts offsetPost (.test "created_at" .gte (.text "2024-03-01T01:30:00.500Z")) = true := by
  have hnow : (⟨"new", Instant.epoch⟩ : Fresh).now.IsProper := by decide
  have hd : Document.ofJson "posts" offsetObject
      ⟨"new", Instant.epoch⟩ = .ok offsetPost := by decide +kernel
  have hfield : Mongo.isInstantField "created_at" = true := by decide
  have hs : readRfc3339? "2024-03-01T01:30:00.500Z" = some offsetPost.created := by decide +kernel
  have htext : "2024-03-01T01:30:00.500Z" = offsetPost.created.text := by decide +kernel
  have hyear : (offsetPost.instant "created_at").date.year ≤ 9999 := by decide +kernel
  have hself : compare (offsetPost.instant "created_at") offsetPost.created = .eq :=
    Instant.compare_eq_iff.mpr rfl
  have hbound : ∀ op ∈ Operator.comparisons,
      accepts offsetPost
        (.test "created_at" op (.text "2024-03-01T01:30:00.500Z")) = op.relates .eq := by
    intro op hop
    rw [← hself]
    exact ((accepts_test_instant_iff hnow hd hfield hop hs).1 htext).mpr (.inl hyear)
  exact ⟨hd, hs, hbound .lte (by decide), hbound .gte (by decide)⟩

/-- The object of a post made at the start of a day. -/
def midnightObject : Json := .obj [("id", .str "p1"), ("created_at", .str "2024-03-01T00:00:00Z")]

/-- The post that is read from the object. -/
def midnightPost : Document :=
  ⟨"p1", "posts", [], ⟨1709251200, 0, Instant.epoch.milli_lt⟩,
    ⟨1709251200, 0, Instant.epoch.milli_lt⟩⟩

/-- The post was made at the instant of the text it is read from, but does not equal that text. -/
theorem accepts_test_instant_midnight :
    Document.ofJson "posts" midnightObject ⟨"new", Instant.epoch⟩ = .ok midnightPost ∧
    readRfc3339? "2024-03-01T00:00:00Z" = some midnightPost.created ∧
    Operator.eq.relates
      (compare (midnightPost.instant "created_at") midnightPost.created) = true ∧
    accepts midnightPost (.test "created_at" .eq (.text "2024-03-01T00:00:00Z")) = false := by
  decide +kernel

end Predicate

end DocQuery
