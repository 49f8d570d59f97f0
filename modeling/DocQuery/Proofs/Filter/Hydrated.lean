import DocQuery.Proofs.Document
import DocQuery.Proofs.Filter.Resolution
import DocQuery.Proofs.Hydration.Direct
import DocQuery.Proofs.Relation.Candidates
import DocQuery.Proofs.Text.Pieces
import DocQuery.Query.Chain

namespace DocQuery

/-- Whether a value refers to documents by nothing but ids: it is null, an id, or, in a field that
    holds many references, an array of ids. -/
def Reference.PlainIn (r : Reference) (value : Json) : Prop :=
  value = .null ∨ (∃ id, value = .str id) ∨
    r.cardinality = .many ∧ ∃ ids : List String, value = .arr (ids.map .str)

/-- Whether a document holds at most one reference for a relation, by ids alone, and has no data of
    its own where the relation is written when it is hydrated. -/
structure Document.RefersPlainly (catalog : Catalog) (relation : String) (d : Document) : Prop where
  unwritten : Entries.get? (Catalog.relationName relation) d.data = none
  single : ∀ r ∈ catalog.candidates relation, ∀ other ∈ catalog.candidates relation,
    (Entries.get? r.field d.data).isSome → (Entries.get? other.field d.data).isSome →
    r.field = other.field
  plain : ∀ r ∈ catalog.candidates relation, ∀ value,
    Entries.get? r.field d.data = some value →
    r.PlainIn value

/-- The members of the entities in a value: of the value itself, or of those in an array. -/
def Json.entities : Json → List (List (String × Json))
  | .obj members => [members]
  | .arr items => items.filterMap fun item => match item with
    | .obj members => some members
    | _ => none
  | _ => []

/-- The members of the entities that a document shows under a name. -/
def Document.entitiesAt (name : String) (d : Document) : List (List (String × Json)) :=
  ((Entries.get? name d.data).map Json.entities).getD []

/-- By a plain value a document refers to the ids that hydration takes from it. -/
theorem Reference.refersTo_iff {r : Reference} {d : Document} {value : Json}
    (hvalue : d.field? r.field = some value) (hplain : r.PlainIn value) (id : String) :
    r.refersTo d id = true ↔ id ∈ Hydration.idsOf value := by
  unfold refersTo
  rw [hvalue]
  rcases hplain with rfl | ⟨referred, rfl⟩ | ⟨-, ids, rfl⟩
  · exact ⟨fun hnever => Bool.noConfusion hnever, fun hnone => by cases hnone⟩
  · change ((Literal.text id).equals (.str referred) || false) = true ↔ id ∈ [referred]
    rw [Literal.equals_text_str, Bool.or_false, beq_iff_eq, List.mem_singleton]
  · change (false || (ids.map Json.str).any (Literal.text id).equals) = true ↔
      id ∈ (ids.map Json.str).filterMap Hydration.idOf?
    have hids : (ids.map Json.str).filterMap Hydration.idOf? = ids := by
      rw [List.filterMap_map]
      exact List.filterMap_some
    rw [hids, Bool.false_or, List.any_map, List.any_eq_true]
    simp only [Function.comp_apply, Literal.equals_text_str, beq_iff_eq, exists_eq_right']

namespace Hydration

/-- What is written for a relation shows every document found, if a single reference finds no more
    than one. -/
theorem entities_relationValue (cardinality : Cardinality) (documents : List Document)
    (hsingle : cardinality = .single → documents.length ≤ 1) :
    (relationValue cardinality (documents.map Document.entity)).entities =
      documents.map Document.entityMembers := by
  cases cardinality with
  | single =>
    match documents, hsingle rfl with
    | [], _ => rfl
    | [d], _ => rfl
  | many =>
    rw [relationValue, Json.entities, List.filterMap_map]
    exact congrFun (List.filterMap_eq_map (f := Document.entityMembers)) documents

private theorem referenceOf?_eq_some {catalog : Catalog} {relation : String} {d : Document}
    (hd : d.RefersPlainly catalog relation) {r : Reference} (hr : r ∈ catalog.candidates relation)
    {value : Json} (hvalue : Entries.get? r.field d.data = some value) :
    referenceOf? (catalog.candidates relation) d = some (r, idsOf value) := by
  cases href : referenceOf? (catalog.candidates relation) d with
  | none =>
    have hnone := List.findSome?_eq_none_iff.mp href r hr
    rw [hvalue] at hnone
    cases hnone
  | some held =>
    obtain ⟨other, hother, hheld⟩ := List.exists_of_findSome?_eq_some href
    obtain ⟨value', hvalue', rfl⟩ := Option.map_eq_some_iff.mp hheld
    have hfield := hd.single r hr other hother (by rw [hvalue]; rfl) (by rw [hvalue']; rfl)
    have hsame : some r = some other := by
      rw [← Catalog.resolve?_of_mem_candidates hr,
        ← Catalog.resolve?_of_mem_candidates hother, hfield]
    cases hsame
    rw [hvalue] at hvalue'
    cases hvalue'
    rfl

/-- Under the name of a hydrated relation a document shows the documents that its reference leads
    to. -/
theorem entitiesAt_hydrate {catalog : Catalog} {find? : Target → String → Option Document}
    {relation : String} {d : Document} {r : Reference} {ids : List String}
    (href : referenceOf? (catalog.candidates relation) d = some (r, ids))
    (hsingle : r.cardinality = .single → ids.length ≤ 1) :
    (hydrate catalog find? (.node [(relation, .empty)]) d).entitiesAt
      (Catalog.relationName relation) =
      (ids.filterMap (find? r.target)).map Document.entityMembers := by
  have hentities : (ids.filterMap fun id => (find? r.target id).map fun found =>
      (hydrate catalog find? .empty found).entity) =
        (ids.filterMap (find? r.target)).map Document.entity := by
    rw [List.map_filterMap]
    rfl
  have hlength : r.cardinality = .single → (ids.filterMap (find? r.target)).length ≤ 1 :=
    fun hcardinality => Nat.le_trans (List.length_filterMap_le _ _) (hsingle hcardinality)
  simp only [hydrate, hydrateEach, href, hentities, Document.entitiesAt]
  rw [Entries.get?_set, if_pos rfl, Option.map_some, Option.getD_some,
    entities_relationValue _ _ hlength]

private theorem length_idsOf_le {r : Reference} {value : Json} (hplain : r.PlainIn value)
    (hsingle : r.cardinality = .single) : (idsOf value).length ≤ 1 := by
  rcases hplain with rfl | ⟨id, rfl⟩ | ⟨hmany, -⟩
  · exact Nat.zero_le 1
  · exact Nat.le_refl 1
  · rw [hsingle] at hmany
    cases hmany

/-- Whether hydrating a relation of a document leads to a document with a property, told from the
    fields that may hold the reference. -/
def Shows (s : Store) (catalog : Catalog) (relation : String) (d : Document)
    (asked : Document → Bool) : Prop :=
  ∃ r ∈ catalog.candidates relation, ∃ value, Entries.get? r.field d.data = some value ∧
    ∃ id ∈ idsOf value, ∃ t, s.find? r.target.name id = some t ∧ asked t

/-- The entities under the name of a hydrated relation are those of the documents that it leads
    to. -/
theorem exists_entity_iff {s : Store} {catalog : Catalog} {relation : String} {d : Document}
    (hd : d.RefersPlainly catalog relation) (asked : List (String × Json) → Bool) :
    (∃ members ∈ (hydrate catalog (fun t id => s.find? t.name id) (.node [(relation, .empty)])
        d).entitiesAt (Catalog.relationName relation), asked members) ↔
      Shows s catalog relation d fun t => asked t.entityMembers := by
  by_cases hheld : ∃ r ∈ catalog.candidates relation, ∃ value,
    Entries.get? r.field d.data = some value
  · obtain ⟨r, hr, value, hvalue⟩ := hheld
    have href := referenceOf?_eq_some hd hr hvalue
    rw [entitiesAt_hydrate href (length_idsOf_le (hd.plain r hr value hvalue))]
    constructor
    · rintro ⟨members, hmembers, hasked⟩
      obtain ⟨t, ht, rfl⟩ := List.mem_map.mp hmembers
      obtain ⟨id, hid, hfind⟩ := List.mem_filterMap.mp ht
      exact ⟨r, hr, value, hvalue, id, hid, t, hfind, hasked⟩
    · rintro ⟨other, hother, value', hvalue', id, hid, t, hfind, hasked⟩
      have hsame := (referenceOf?_eq_some hd hother hvalue').symm.trans href
      simp only [Option.some.injEq, Prod.mk.injEq] at hsame
      rw [hsame.2] at hid
      rw [hsame.1] at hfind
      exact ⟨_, List.mem_map_of_mem (List.mem_filterMap.mpr ⟨id, hid, hfind⟩), hasked⟩
  · have href : referenceOf? (catalog.candidates relation) d = none :=
      List.findSome?_eq_none_iff.mpr fun r hr => Option.map_eq_none_iff.mpr <|
        Option.eq_none_iff_forall_ne_some.mpr fun value hvalue => hheld ⟨r, hr, value, hvalue⟩
    have hnone : (hydrate catalog (fun t id => s.find? t.name id) (.node [(relation, .empty)])
        d).entitiesAt (Catalog.relationName relation) = [] := by
      simp only [hydrate, hydrateEach, href, Document.entitiesAt, hd.unwritten, Option.map_none,
        Option.getD_none]
    rw [hnone]
    constructor
    · rintro ⟨members, hmembers, -⟩
      cases hmembers
    · rintro ⟨r, hr, value, hvalue, -⟩
      exact absurd ⟨r, hr, value, hvalue⟩ hheld

end Hydration

namespace Clause

/-- A clause on a field of a related document holds where hydrating the relation leads to a document
    that satisfies it. -/
theorem pathHolds_iff_shows {s : Store} (hs : s.Filed) {catalog : Catalog} {relation : String}
    {d : Document} (hd : d.RefersPlainly catalog relation) {field : String} (hfield : field ≠ "")
    (op : Operator) (value : Literal) :
    pathHolds s catalog field op value [relation] d = true ↔
      Hydration.Shows s catalog relation d fun t => op.holds (t.field? field) value := by
  simp only [pathHolds, hfield, and_false, if_false, List.any_eq_true, Bool.and_eq_true]
  refine exists_congr fun r => and_congr_right fun hr => ?_
  have hdata := Catalog.field?_of_mem_candidates hr d
  constructor
  · rintro ⟨⟨id, t⟩, hmem, hholds, hrefers⟩
    cases hvalue : Entries.get? r.field d.data with
    | none =>
      rw [Reference.refersTo, hdata, hvalue] at hrefers
      cases hrefers
    | some value' =>
      have hid := (Reference.refersTo_iff (hdata.trans hvalue)
        (hd.plain r hr value' hvalue) t.id).mp hrefers
      obtain ⟨hown, -⟩ := (hs.documents r.target.name).own _ hmem
      exact ⟨value', rfl, t.id, hid, t, hs.find?_eq_some_iff.mpr (hown ▸ hmem), hholds⟩
  · rintro ⟨value', hvalue, id, hid, t, hfind, hholds⟩
    have hrefers :=
      (Reference.refersTo_iff (hdata.trans hvalue) (hd.plain r hr value' hvalue) id).mpr hid
    refine ⟨(id, t), hs.find?_eq_some_iff.mp hfind, hholds, ?_⟩
    rwa [hs.id_of_find? hfind]

end Clause

private theorem FieldPath.parse_related {relation field : String} (hrelation : relation ≠ "")
    (hrelationDots : '.' ∉ relation.toList) (hfieldDots : '.' ∉ field.toList) :
    parse (relation ++ "." ++ field) = .ok ⟨[relation], field⟩ := by
  have hsplit : Text.split '.' (relation ++ "." ++ field) = [relation, field] := by
    rw [show "." = String.singleton '.' from rfl, Text.split_append,
      Text.split_of_not_mem hrelationDots, Text.split_of_not_mem hfieldDots]
    rfl
  simp only [parse, hsplit, hrelation, if_false]
  rw [if_neg (by simpa using Ne.symm hrelation)]
  rfl

private theorem Chain.parse_relation {relation : String} (hrelation : relation ≠ "")
    (hdots : '.' ∉ relation.toList) (htrim : Text.trim relation = relation) :
    parse relation = .ok ⟨[relation]⟩ := by
  unfold parse
  rw [htrim, Text.split_of_not_mem hdots]
  exact if_neg (by simpa using Ne.symm hrelation)

namespace Filter

/-- A clause on a field of a related document passes the checks of any engine that looks relations
    up. -/
theorem resolvable_related {config : Config} (hdepth : 1 ≤ config.maxFilterDepth)
    (relation : String) {field : String} (hfield : field ≠ "") (op : Operator) (value : Literal)
    (group : Option String) :
    (ofClauses [⟨⟨[relation], field⟩, op, value, group⟩]).Resolvable config := by
  have hnot : (FieldPath.mk [relation] field).isExistence =
      false := by simp [FieldPath.isExistence, hfield]
  exact resolvable_singleton hnot (by simpa [FieldPath.hops, hnot] using hdepth)

/-- Filtering by a field of a related document is filtering what hydration shows: a document that
    refers plainly is accepted exactly when, hydrated along the relation, it shows an entity whose
    member of that name satisfies the clause. -/
theorem accepts_iff_exists_entity {s : Store} (hreached : s.Reachable) (config : Config)
    (hfilterDepth : 1 ≤ config.maxFilterDepth) (hhydrationDepth : 1 ≤ config.maxHydrationDepth)
    (catalog : Catalog) (relation field : String) (hrelation : relation ≠ "")
    (hrelationDots : '.' ∉ relation.toList) (htrim : Text.trim relation = relation)
    (hfield : field ≠ "") (hfieldDots : '.' ∉ field.toList) (op : Operator) (value : Literal)
    (group : Option String) {d : Document} (hd : d.RefersPlainly catalog relation) :
    ∃ path chain predicate warnings hydrated more,
      FieldPath.parse (relation ++ "." ++ field) = .ok path ∧ Chain.parse relation = .ok chain ∧
      ((ofClauses [⟨path, op, value, group⟩]).resolve config catalog).outcome (.ofStore s) =
        .ok (predicate, warnings) ∧
      (Hydration.run config catalog [chain] [d]).outcome (.ofStore s) = .ok ([hydrated], more) ∧
      ((predicate.all fun p => p.accepts d) = true ↔
        ∃ members ∈ hydrated.entitiesAt (Catalog.relationName relation),
          op.holds (Entries.get? field members) value) := by
  have hs := hreached.filed
  obtain ⟨predicate, warnings, hresolve, hmeets⟩ :=
    outcome_resolve s config catalog
      (resolvable_related hfilterDepth relation hfield op value group)
  obtain ⟨more, hrun⟩ := Hydration.outcome_run hs config catalog [⟨[relation]⟩] [d]
  refine ⟨_, _, predicate, warnings, _, more,
    FieldPath.parse_related hrelation hrelationDots hfieldDots,
    Chain.parse_relation hrelation hrelationDots htrim, hresolve, hrun, ?_⟩
  have htree : (Hydration.tree [⟨[relation]⟩] config.maxHydrationDepth).1 =
      .node [(relation, .empty)] := by
    obtain ⟨rest, hrest⟩ := Nat.exists_eq_add_of_le' hhydrationDepth
    rw [Hydration.tree, hrest]
    simp only [List.map_cons, List.map_nil, List.take_succ_cons, List.take_nil]
    rfl
  rw [hmeets, meets_ofClauses_singleton, htree,
    Hydration.exists_entity_iff hd fun members => op.holds (Entries.get? field members) value]
  simp only [Document.get?_entityMembers]
  exact Clause.pathHolds_iff_shows hs hd hfield op value

/-- The post is found by the role of its author. -/
theorem accepts_sample_post_by_role :
    Store.sample.Reachable ∧
    Store.samplePost.RefersPlainly ⟨{}, Store.sample.names⟩ "author" ∧
    ∃ predicate warnings,
      ((ofClauses [⟨⟨["author"], "role"⟩, .eq, .text "admin", none⟩]).resolve {}
        ⟨{}, Store.sample.names⟩).outcome
        (.ofStore Store.sample) = .ok (predicate, warnings) ∧
      (predicate.all fun p => p.accepts Store.samplePost) = true := by
  have hfield : ∀ field value, Entries.get? field Store.samplePost.data = some value →
      field = "author_id" ∧ value = .str "u1" := by
    intro field value hvalue
    obtain ⟨rfl, rfl⟩ : "author_id" = field ∧ Json.str "u1" = value := by
      simpa [Store.samplePost, Entries.get?] using hvalue
    exact ⟨rfl, rfl⟩
  have hplain : Store.samplePost.RefersPlainly ⟨{}, Store.sample.names⟩ "author" := by
    refine ⟨by decide +kernel, fun r _ other _ hr hother => ?_, fun r _ value hvalue => ?_⟩
    · obtain ⟨_, hr⟩ := Option.isSome_iff_exists.mp hr
      obtain ⟨_, hother⟩ := Option.isSome_iff_exists.mp hother
      rw [(hfield _ _ hr).1, (hfield _ _ hother).1]
    · exact .inr (.inl ⟨"u1", (hfield _ _ hvalue).2⟩)
  obtain ⟨path, chain, predicate, warnings, hydrated, more, hpath, hchain, hresolve, hrun,
      hiff⟩ :=
    accepts_iff_exists_entity Store.reachable_sample {} (by decide) (by decide)
      ⟨{}, Store.sample.names⟩
      "author" "role" (by decide) (by decide) (by decide)
      (by decide) (by decide) .eq (.text "admin") none hplain
  have hpath' : FieldPath.parse ("author" ++ "." ++ "role") =
      .ok ⟨["author"], "role"⟩ := by decide +kernel
  have hchain' : Chain.parse "author" = .ok ⟨["author"]⟩ := by decide +kernel
  cases hpath.symm.trans hpath'
  cases hchain.symm.trans hchain'
  refine ⟨Store.reachable_sample, hplain, predicate, warnings, hresolve, hiff.mpr ?_⟩
  have hshown :
      (((Hydration.run {} ⟨{}, Store.sample.names⟩ [⟨["author"]⟩]
        [Store.samplePost]).outcome
      (.ofStore Store.sample)).toOption.map fun answer =>
        answer.1.flatMap (Document.entitiesAt "author")) =
        some [Store.sampleUser.entityMembers] := by decide +kernel
  rw [hrun] at hshown
  simp only [Except.toOption, Option.map_some, List.flatMap_singleton, Option.some.injEq] at hshown
  have hname : Catalog.relationName "author" = "author" := by decide +kernel
  rw [hname, hshown]
  exact ⟨_, List.mem_singleton_self _, by decide +kernel⟩

end Filter

end DocQuery
