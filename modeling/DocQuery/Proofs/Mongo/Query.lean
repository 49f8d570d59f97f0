import DocQuery.Mongo.Query
import DocQuery.Proofs.Mongo.Flat
import DocQuery.Proofs.Mongo.Grammar

namespace DocQuery.Mongo

namespace Condition

/-- Whether a condition compares whole values. -/
def Compares : Condition → Prop
  | .within _ | .without _ | .absent | .present => True
  | .bound _ value => value.IsScalar
  | .pattern _ _ | .element _ => False

end Condition

namespace Filter

mutual

/-- Whether all conditions in a filter compare whole values. -/
def Compares : Filter → Prop
  | .all parts | .any parts => ComparesEach parts
  | .on _ condition => condition.Compares

@[inherit_doc Compares]
def ComparesEach : List Filter → Prop
  | [] => True
  | f :: rest => Compares f ∧ ComparesEach rest

end

private theorem comparesEach_iff {parts : List Filter} :
    ComparesEach parts ↔ ∀ f ∈ parts, f.Compares := by
  induction parts with
  | nil => exact iff_of_true trivial fun _ hf => absurd hf List.not_mem_nil
  | cons f rest ih => rw [ComparesEach, ih, List.forall_mem_cons]

end Filter

namespace Query

/-- The four comparisons are read back by their names: none of them is called as the test for
    presence is, and the operand is no array. -/
private theorem condition?_of_isScalar {value : Bson} (hvalue : value.IsScalar) (side : Bound) :
    condition? (Filter.boundName side) value = some (.bound side value) := by
  have hopen : condition? (Filter.boundName side) value
      = if Filter.boundName side = "$ne" ∧ value.isNull then some .present
        else ([Bound.gt, .gte, .lt, .lte].find? fun other =>
          Filter.boundName other = Filter.boundName side).map (.bound · value) := by
    cases value with
    | arr _ => cases hvalue
    | _ => rfl
  have hname : Filter.boundName side ≠ "$ne" := by cases side <;> decide
  have hside : ([Bound.gt, .gte, .lt, .lte].find? fun other =>
      Filter.boundName other = Filter.boundName side) = some side := by cases side <;> decide
  rw [hopen, if_neg fun hne => hname hne.1, hside]
  rfl

/-- A condition on whole values is read back from the value that is sent for it. -/
theorem holds_conditionValue {condition : Condition} (hcompares : condition.Compares)
    (stored : Option Bson) :
    holds stored (Filter.conditionValue condition) = condition.holds id stored := by
  cases condition with
  | within _ | without _ | absent | present => rfl
  | bound side value =>
    rw [Filter.conditionValue, holds, condition?_of_isScalar hcompares]
    rfl
  | pattern _ _ | element _ => cases hcompares

variable {stored : List (String × Bson)}

mutual

/-- A filter document matches what its filter matches. -/
theorem accepts_document : (f : Filter) → f.Compares →
    accepts stored (Filter.document f) = f.accepts id stored
  | .all [], _ => rfl
  | .all (f :: rest), hparts => by
    have hopen : accepts stored (Filter.document (.all (f :: rest)))
        = (acceptsAll stored (Filter.documents (f :: rest)) && true) := rfl
    rw [hopen, Bool.and_true, acceptsAll_documents (f :: rest) hparts]
    rfl
  | .any parts, hparts => by
    have hopen : accepts stored (Filter.document (.any parts))
        = (acceptsAny stored (Filter.documents parts) && true) := rfl
    rw [hopen, Bool.and_true, acceptsAny_documents parts hparts]
    rfl
  | .on key condition, hcompares => by
    have hmember : acceptsMember stored key (Filter.conditionValue condition)
        = holds (Entries.get? key stored) (Filter.conditionValue condition) := by
      cases condition <;> rfl
    rw [Filter.document, accepts, hmember, holds_conditionValue hcompares, accepts, Bool.and_true]
    rfl

/-- A conjunction is sent as an array of documents, each of which matches what its part matches. -/
theorem acceptsAll_documents : (parts : List Filter) → Filter.ComparesEach parts →
    acceptsAll stored (Filter.documents parts) = Filter.acceptsAll id stored parts
  | [], _ => rfl
  | f :: rest, hparts => by
    rw [Filter.documents, acceptsAll, Filter.acceptsAll, accepts_document f hparts.1,
      acceptsAll_documents rest hparts.2]

/-- A disjunction is sent in the same way. -/
theorem acceptsAny_documents : (parts : List Filter) → Filter.ComparesEach parts →
    acceptsAny stored (Filter.documents parts) = Filter.acceptsAny id stored parts
  | [], _ => rfl
  | f :: rest, hparts => by
    rw [Filter.documents, acceptsAny, Filter.acceptsAny, accepts_document f hparts.1,
      acceptsAny_documents rest hparts.2]

end

end Query

/-- The operators that compare values as wholes. -/
def scalarOperators : List Operator :=
  [.eq, .ne, .gt, .gte, .lt, .lte, .isIn, .notIn, .overlaps, .isNull]

namespace Filter

/-- Leaves are neither arrays nor documents. -/
theorem isScalar_of_isLeaf {v : Bson} (hleaf : v.IsLeaf) : v.IsScalar := by
  cases v with
  | arr _ | doc _ => cases hleaf
  | _ => trivial

theorem compares_nothing : nothing.Compares := trivial

private theorem compares_within (key : String) (values : List Bson) :
    (if values.isEmpty then nothing else .on key (.within values)).Compares := by
  split
  · exact compares_nothing
  · trivial

/-- A comparison with several values is sent as a disjunction, with one value as the comparison
    alone, and with none as the filter that matches nothing. -/
private theorem compares_bounds {key : String} {side : Bound} {values : List Bson}
    (hvalues : ∀ v ∈ values, v.IsScalar) :
    (match values.map fun v => Filter.on key (.bound side v) with
    | [] => nothing
    | [single] => single
    | several => .any several).Compares := by
  match values with
  | [] => exact compares_nothing
  | [v] => exact hvalues v List.mem_cons_self
  | first :: second :: rest =>
    refine comparesEach_iff.mpr fun f hf => ?_
    obtain ⟨v, hv, rfl⟩ : ∃ v ∈ first :: second :: rest,
        Filter.on key (.bound side v) = f :=
      List.mem_map.mp hf
    exact hvalues v hv

/-- A test for whole values is sent as comparisons of whole values. -/
theorem compares_ofTest {field : String} {op : Operator} {literal : Literal}
    (hop : op ∈ scalarOperators) : (ofTest field op literal).Compares := by
  have hvalues : ∀ v ∈ (values field true literal).filter (fun v => !v.isNull), v.IsScalar :=
    fun v hv => isScalar_of_isLeaf (isLeaf_of_mem_values (List.mem_filter.mp hv).1)
  cases op with
  | eq | isIn | overlaps => exact compares_within _ _
  | ne | notIn => trivial
  | gt | gte | lt | lte => exact compares_bounds hvalues
  | isNull =>
    simp only [ofTest]
    split <;> trivial
  | contains | icontains | startsWith | istartsWith | endsWith | iendsWith =>
    exact absurd hop (by decide)

end Filter

end DocQuery.Mongo
