import DocQuery.Mongo.Grammar
import DocQuery.Proofs.Mongo.Key

namespace DocQuery.Mongo

open DocQuery.Mongo.Query (IsTest Mirrors MirrorsEach IsKeyOf IsMember)

namespace Filter

/-- An item of a literal is written out in leaves. -/
theorem isLeaf_of_mem_valuesOfItem {ordered : Bool} {item : Literal} {v : Bson}
    (hv : v ∈ valuesOfItem ordered item) : v.IsLeaf := by
  cases v with
  | null | bool _ | str _ | double _ | date _ => trivial
  | int32 _ | int64 _ | objectId _ | arr _ | doc _ =>
    cases item <;> cases ordered <;> simp [valuesOfItem] at hv

/-- A literal is written out in leaves. -/
theorem isLeaf_of_mem_values {field : String} {ordered : Bool} {literal : Literal} {v : Bson}
    (hv : v ∈ values field ordered literal) : v.IsLeaf := by
  unfold values at hv
  split at hv
  · obtain ⟨item, -, hitem⟩ := List.mem_filterMap.mp hv
    obtain ⟨t, -, rfl⟩ := Option.map_eq_some_iff.mp hitem
    trivial
  · obtain ⟨item, -, hitem⟩ := List.mem_flatMap.mp hv
    exact isLeaf_of_mem_valuesOfItem hitem

section IsTest

variable {name : String}

theorem documents_eq_map (parts : List Filter) :
    documents parts = (parts.map document).map .doc := by
  induction parts with
  | nil => rfl
  | cons f rest ih => rw [documents, ih]; rfl

/-- Of several tests of one name any one makes a test of that name. -/
theorem isTest_any {parts : List Filter} (hne : parts ≠ [])
    (hparts : ∀ f ∈ parts, IsTest name (document f)) : IsTest name (document (.any parts)) := by
  rw [document, documents_eq_map]
  refine .either (fun hnil => hne (List.map_eq_nil_iff.mp hnil)) fun part hpart => ?_
  obtain ⟨f, hf, rfl⟩ := List.mem_map.mp hpart
  exact hparts f hf

private theorem isTest_within {values : List Bson} (hvalues : ∀ v ∈ values, v.IsLeaf) :
    IsTest name (document (if values.isEmpty then nothing else .on name (.within values))) := by
  split
  · exact .impossible
  · exact .on (.among (by decide) hvalues)

private theorem isTest_bounds {side : Bound} {values : List Bson}
    (hvalues : ∀ v ∈ values, v.IsLeaf) :
    IsTest name (document
      (match values.map fun v => Filter.on name (.bound side v) with
      | [] => nothing
      | [single] => single
      | several => .any several)) := by
  have hbound : ∀ f ∈ values.map (fun v => Filter.on name (.bound side v)),
      IsTest name (document f) := by
    intro f hf
    obtain ⟨v, hv, rfl⟩ := List.mem_map.mp hf
    exact .on (.bound side (hvalues v hv))
  split
  · exact .impossible
  · next single hsingle => exact hbound single (hsingle ▸ List.mem_cons_self)
  · next hne _ => exact isTest_any hne hbound

/-- The text of a literal only ever stands inside of the expression that is sent for it. -/
theorem isTest_patternOn (op : Operator) (literal : Literal) :
    IsTest name (document (patternOn name op literal)) := by
  unfold patternOn
  split
  · exact .impossible
  · exact .on (.pattern _ _)

private theorem isTest_contains {values : List Bson} (hvalues : ∀ v ∈ values, v.IsLeaf)
    (op : Operator) (literal : Literal) :
    IsTest name (document
      (if values.isEmpty then patternOn name op literal
      else .any [patternOn name op literal, .on name (.element values)])) := by
  split
  · exact isTest_patternOn op literal
  · refine isTest_any (List.cons_ne_nil _ _)
      (List.forall_mem_cons.mpr ⟨isTest_patternOn op literal, ?_⟩)
    exact List.forall_mem_singleton.mpr (.on (.element hvalues))

/-- Whatever the literal, a test is sent as a test of its field. -/
theorem isTest_ofTest (field : String) (op : Operator) (literal : Literal) :
    IsTest (storedField field) (document (ofTest field op literal)) := by
  have hvalues : ∀ ordered,
      ∀ v ∈ (values field ordered literal).filter (fun v => !v.isNull), v.IsLeaf :=
    fun ordered v hv => isLeaf_of_mem_values (List.mem_filter.mp hv).1
  cases op with
  | eq | isIn | overlaps => exact isTest_within (hvalues false)
  | ne | notIn => exact .on (.among (by decide) (hvalues false))
  | gt | gte | lt | lte => exact isTest_bounds (hvalues true)
  | contains | icontains => exact isTest_contains (hvalues false) _ literal
  | startsWith | istartsWith | endsWith | iendsWith => exact isTest_patternOn _ literal
  | isNull =>
    simp only [ofTest]
    split
    · exact .on .absent
    · exact .on .present
    · exact .impossible

end IsTest

mutual

/-- The filter of a predicate repeats its form, down to the tests. -/
theorem mirrors_ofPredicate : (p : Predicate) → Mirrors p (document (ofPredicate p))
  | .all [] => rfl
  | .all (p :: rest) => ⟨_, rfl, mirrorsEach_ofPredicates (p :: rest)⟩
  | .any [] => rfl
  | .any (p :: rest) => ⟨_, rfl, mirrorsEach_ofPredicates (p :: rest)⟩
  | .test field op literal => isTest_ofTest field op literal

theorem mirrorsEach_ofPredicates :
    (parts : List Predicate) → MirrorsEach parts (documents (ofPredicates parts))
  | [] => rfl
  | p :: rest => ⟨_, _, rfl, mirrors_ofPredicate p, mirrorsEach_ofPredicates rest⟩

end

end Filter

namespace Query

private theorem throughoutItems_iff {member : String → Bson → Prop} {leaf : Bson → Prop}
    {items : List Bson} :
    Bson.ThroughoutItems member leaf items ↔ ∀ item ∈ items, item.Throughout member leaf := by
  induction items with
  | nil => exact iff_of_true trivial fun _ hitem => absurd hitem List.not_mem_nil
  | cons item rest ih => rw [Bson.ThroughoutItems, ih, List.forall_mem_cons]

private theorem throughout_of_isLeaf {member : String → Bson → Prop} {value : Bson}
    (hleaf : value.IsLeaf) :
    value.Throughout member Bson.IsLeaf := by
  cases value with
  | null | bool _ | str _ | double _ | date _ => exact hleaf
  | int32 _ | int64 _ | objectId _ | arr _ | doc _ => cases hleaf

private theorem throughout_leaves {member : String → Bson → Prop} {values : List Bson}
    (hleaves : ∀ v ∈ values, v.IsLeaf) : (Bson.arr values).Throughout member Bson.IsLeaf :=
  throughoutItems_iff.mpr fun v hv => throughout_of_isLeaf (hleaves v hv)

section Names

variable {key : String → Prop}

private theorem isMember_comparison {name : String} (hname : name ∈ comparisons) (value : Bson) :
    IsMember key name value where
  named := .inl (List.mem_append_right joins hname)
  parts hjoin := by
    have hnever : ∀ name ∈ comparisons, name ∉ joins := by decide
    exact absurd hjoin (hnever name hname)

private theorem isMember_join {name : String} (hname : name ∈ joins) {items : List Bson}
    (hne : items ≠ []) :
    IsMember key name (.arr items) :=
  ⟨.inl (List.mem_append_left comparisons hname), fun _ => ⟨items, rfl, hne⟩⟩

private theorem throughout_comparison {name : String} (hname : name ∈ comparisons) {value : Bson}
    (hvalue : value.Throughout (IsMember key) Bson.IsLeaf) :
    (Bson.doc [(name, value)]).Throughout (IsMember key) Bson.IsLeaf :=
  ⟨isMember_comparison hname value, hvalue, trivial⟩

/-- The names in a condition are operators, and its literals are leaves. -/
theorem IsCondition.throughout {value : Bson} (hcondition : IsCondition value) :
    value.Throughout (IsMember key) Bson.IsLeaf := by
  cases hcondition with
  | absent => trivial
  | present => exact throughout_comparison (by decide) (throughout_of_isLeaf trivial)
  | among hknown hleaves =>
    have hname : ∀ name ∈ ["$in", "$nin"], name ∈ comparisons := by decide
    exact throughout_comparison (hname _ hknown) (throughout_leaves hleaves)
  | bound side hleaf =>
    have hname : Filter.boundName side ∈ comparisons := by cases side <;> decide
    exact throughout_comparison hname (throughout_of_isLeaf hleaf)
  | pattern expression options =>
    exact ⟨isMember_comparison (by decide) _, trivial, isMember_comparison (by decide) _,
      trivial, trivial⟩
  | element hleaves =>
    exact throughout_comparison (by decide)
      (throughout_comparison (by decide) (throughout_leaves hleaves))

/-- Names that are no operators stand at a place for names. -/
theorem throughout_on (hplain : ∀ name, key name → name ∉ joins) {name : String}
    (hname : key name) {value : Bson} (hcondition : IsCondition value) :
    (Bson.doc [(name, value)]).Throughout (IsMember key) Bson.IsLeaf :=
  ⟨⟨.inr hname, fun hjoin => absurd hjoin (hplain name hname)⟩,
    hcondition.throughout, trivial⟩

private theorem throughout_impossible (hplain : ∀ name, key name → name ∉ joins)
    (hid : key Key.id) :
    (Bson.doc impossible).Throughout (IsMember key) Bson.IsLeaf :=
  throughout_on hplain hid (.among (by decide) fun _ hv => absurd hv List.not_mem_nil)

/-- The names in a test are operators, the name that it is for, and that of the id. -/
theorem IsTest.throughout (hplain : ∀ name, key name → name ∉ joins) (hid : key Key.id)
    {name : String} (hname : key name) {members : List (String × Bson)}
    (htest : IsTest name members) :
    (Bson.doc members).Throughout (IsMember key) Bson.IsLeaf := by
  induction htest with
  | impossible => exact throughout_impossible hplain hid
  | on hcondition => exact throughout_on hplain hname hcondition
  | either hne _ ih =>
    refine ⟨isMember_join (by decide) fun hnil => hne (List.map_eq_nil_iff.mp hnil),
      ?_, trivial⟩
    refine throughoutItems_iff.mpr fun item hitem => ?_
    obtain ⟨part, hpart, rfl⟩ := List.mem_map.mp hitem
    exact ih part hpart

private theorem MirrorsEach.ne_nil {p : Predicate} {rest : List Predicate} {documents : List Bson}
    (heach : MirrorsEach (p :: rest) documents) : documents ≠ [] := by
  obtain ⟨members, others, rfl, -⟩ := heach
  exact List.cons_ne_nil _ _

mutual

/-- In a filter document for a predicate, every name at every depth is an operator or the stored
    name of a field of the predicate, and all else is leaves. -/
theorem Mirrors.throughout (hplain : ∀ name, key name → name ∉ joins) (hid : key Key.id) :
    (p : Predicate) → (∀ field ∈ p.fields, key (storedField field)) →
      ∀ {members}, Mirrors p members → (Bson.doc members).Throughout (IsMember key) Bson.IsLeaf
  | .all [], _, _, hnil => by
    cases hnil
    trivial
  | .all (p :: rest), hfields, _, hmembers => by
    obtain ⟨documents, rfl, heach⟩ := hmembers
    have hitems := MirrorsEach.throughout hplain hid (p :: rest) hfields heach
    exact ⟨isMember_join (by decide) heach.ne_nil, hitems, trivial⟩
  | .any [], _, _, himpossible => by
    cases himpossible
    exact throughout_impossible hplain hid
  | .any (p :: rest), hfields, _, hmembers => by
    obtain ⟨documents, rfl, heach⟩ := hmembers
    have hitems := MirrorsEach.throughout hplain hid (p :: rest) hfields heach
    exact ⟨isMember_join (by decide) heach.ne_nil, hitems, trivial⟩
  | .test field _ _, hfields, _, htest =>
    IsTest.throughout hplain hid (hfields field List.mem_cons_self) htest

theorem MirrorsEach.throughout (hplain : ∀ name, key name → name ∉ joins) (hid : key Key.id) :
    (parts : List Predicate) →
    (∀ field ∈ Predicate.fieldsOf parts, key (storedField field)) →
      ∀ {documents}, MirrorsEach parts documents →
        Bson.ThroughoutItems (IsMember key) Bson.IsLeaf documents
  | [], _, _, hnil => by
    cases hnil
    trivial
  | p :: rest, hfields, _, heach => by
    obtain ⟨members, others, rfl, hmembers, hothers⟩ := heach
    refine ⟨Mirrors.throughout hplain hid p (fun field hfield => ?_) hmembers,
      MirrorsEach.throughout hplain hid rest (fun field hfield => ?_) hothers⟩
    · exact hfields field (List.mem_append_left _ hfield)
    · exact hfields field (List.mem_append_right _ hfield)

end

end Names

end Query

private theorem escape_id : Key.escape Key.id = Key.id := by decide +kernel

/-- Every stored name is what is stored for some name. -/
theorem exists_escape_eq_storedField (field : String) :
    ∃ name, Key.escape name = storedField field := by
  have hcreated : Key.escape Key.created = Key.created := by decide +kernel
  have hupdated : Key.escape Key.updated = Key.updated := by decide +kernel
  unfold storedField
  split
  · exact ⟨_, escape_id⟩
  split
  · exact ⟨_, hcreated⟩
  split
  · exact ⟨_, hupdated⟩
  · exact ⟨field, rfl⟩

/-- The characters that mean something in a name are not stored in any. -/
theorem not_mem_of_isKeyOf {p : Predicate} {name : String} (hname : IsKeyOf p name) {c : Char}
    (hc : c ∈ Key.markers.map (·.1)) : c ∉ name.toList := by
  have hescaped : ∃ original, Key.escape original = name := by
    rcases hname with rfl | ⟨field, -, rfl⟩
    · exact ⟨_, escape_id⟩
    · exact exists_escape_eq_storedField field
  obtain ⟨original, rfl⟩ := hescaped
  obtain ⟨m, hm, rfl⟩ := List.mem_map.mp hc
  rw [Key.escape_eq, String.toList_ofList]
  exact Key.not_mem_escapeWith Key.separate_markers hm _

/-- The filter document of a predicate is put together as the predicate is, whatever its fields and
    literals hold. At every depth its names are operators and stored names of fields of the
    predicate, which hold no dot, dollar sign or zero character, every conjunction and disjunction
    has parts, and literals are leaves. -/
theorem document_ofPredicate_mirrors (p : Predicate) :
    Mirrors p (Filter.document (Filter.ofPredicate p)) ∧
      (Bson.doc (Filter.document (Filter.ofPredicate p))).Throughout
        (IsMember (IsKeyOf p)) Bson.IsLeaf ∧
      ∀ name, IsKeyOf p name → ∀ c ∈ ['.', '$', '\x00'], c ∉ name.toList := by
  refine ⟨Filter.mirrors_ofPredicate p, ?_, fun name hname c hc => not_mem_of_isKeyOf hname hc⟩
  have hnoJoin : ∀ name, IsKeyOf p name → name ∉ Query.joins := by
    intro name hname hjoin
    have hdollar : ∀ name ∈ Query.joins, '$' ∈ name.toList := by decide +kernel
    exact not_mem_of_isKeyOf hname (by decide) (hdollar name hjoin)
  have hfields : ∀ field ∈ p.fields, IsKeyOf p (storedField field) :=
    fun field hfield => .inr ⟨field, hfield, rfl⟩
  exact Query.Mirrors.throughout hnoJoin (.inl rfl) p hfields (Filter.mirrors_ofPredicate p)

end DocQuery.Mongo
