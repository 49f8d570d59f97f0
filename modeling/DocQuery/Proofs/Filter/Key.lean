import Mathlib.Tactic.ByContra
import DocQuery.Filter.Grammar
import DocQuery.Proofs.Filter.Path
import DocQuery.Proofs.Steps

namespace DocQuery

namespace Operator

theorem word_injective {op op' : Operator} (hword : op.word = op'.word) : op = op' := by
  have hfound : ofWord? op.word = some op' := hword ▸ ofWord?_word op'
  exact Option.some.inj ((ofWord?_word op).symm.trans hfound)

private theorem underscore_not_mem_word (op : Operator) : '_' ∉ op.word.toList := by
  cases op <;> decide

end Operator

namespace Clause

/-- A marker names its group behind a colon, or stands for the group without a name. -/
theorem groupOfMarker?_eq_some_iff {marker name : String} :
    groupOfMarker? marker = some name ↔
      marker = "or" ∧ name = anonymousGroup ∨ marker = "or:" ++ name ∧ isGroupName name := by
  unfold groupOfMarker?
  cases hcut : Text.cutAt? ':' marker with
  | none =>
    have hcolon : ':' ∉ marker.toList := Text.cutAt?_eq_none_iff.mp hcut
    simp only [Option.ite_none_right_eq_some, Option.some.injEq]
    constructor
    · exact fun ⟨hmarker, hname⟩ => .inl ⟨hmarker, hname.symm⟩
    · rintro (⟨hmarker, hname⟩ | ⟨rfl, -⟩)
      · exact ⟨hmarker, hname.symm⟩
      · exact absurd (by simp) hcolon
  | some parts =>
    obtain ⟨word, after⟩ := parts
    obtain ⟨hword, rfl⟩ := Text.cutAt?_eq_some_iff.mp hcut
    simp only [Option.ite_none_right_eq_some, Option.some.injEq]
    constructor
    · rintro ⟨⟨rfl, hgroup⟩, rfl⟩
      exact .inr ⟨rfl, hgroup⟩
    · rintro (⟨hmarker, -⟩ | ⟨hmarker, hgroup⟩)
      · have hcolon : ':' ∈ "or".toList := by rw [← hmarker]; simp
        exact absurd hcolon (by decide)
      · have hor : Text.cutAt? ':' ("or:" ++ name) = some ("or", name) :=
          Text.cutAt?_eq_some_iff.mpr ⟨by decide, rfl⟩
        rw [← hmarker, hcut, Option.some.injEq, Prod.mk.injEq] at hor
        exact ⟨⟨hor.1, hor.2 ▸ hgroup⟩, hor.2⟩

/-- A name of a group does not close its marker. -/
theorem bracket_not_mem_of_isGroupName {name : String} (hname : isGroupName name = true) :
    ']' ∉ name.toList := by
  intro hmem
  simp only [isGroupName, Bool.and_eq_true, List.all_eq_true] at hname
  exact absurd (hname.2 ']' hmem) (by decide)

/-- The marker of a named group. -/
theorem markerText_of_isGroupName {name : String} (hname : isGroupName name = true) :
    markerText (some name) = "[" ++ ("or:" ++ name) ++ "]" := by
  have hne : name ≠ anonymousGroup := by
    rintro rfl
    exact absurd hname (by decide)
  simp only [markerText, if_neg hne, ← String.append_assoc]
  rfl

/-- The text between the brackets of a marker tells the group. -/
theorem markerText_of_groupOfMarker? {marker name : String}
    (hgroup : groupOfMarker? marker = some name) :
    (name = anonymousGroup ∨ isGroupName name) ∧ markerText (some name) =
      "[" ++ marker ++ "]" := by
  rcases groupOfMarker?_eq_some_iff.mp hgroup with ⟨rfl, rfl⟩ | ⟨rfl, hname⟩
  · exact ⟨.inl rfl, by decide⟩
  · exact ⟨.inr hname, markerText_of_isGroupName hname⟩

private theorem exists_marker {name : String}
    (hnamed : name = anonymousGroup ∨ isGroupName name) :
    ∃ marker, ']' ∉ marker.toList ∧ groupOfMarker? marker = some name ∧
      markerText (some name) = "[" ++ marker ++ "]" := by
  rcases hnamed with rfl | hname
  · exact ⟨"or", by decide, by decide, by decide⟩
  · refine ⟨"or:" ++ name, ?_, groupOfMarker?_eq_some_iff.mpr (.inr ⟨rfl, hname⟩),
      markerText_of_isGroupName hname⟩
    have hclosed := bracket_not_mem_of_isGroupName hname
    simpa using hclosed

/-- A key is split behind what the grammar lets it begin with. -/
theorem splitMarker_eq_ok_iff {key rest : String} {group : Option String} :
    splitMarker key = .ok (group, rest) ↔ Begins key group rest := by
  constructor
  · intro hsplit
    unfold splitMarker at hsplit
    split at hsplit
    · next hplain =>
      cases hsplit
      exact .unmarked (Text.dropStart?_eq_none_iff.mp hplain)
    · next marked hmarked =>
      split at hsplit
      · cases hsplit
      · next marker after hcut =>
        split at hsplit
        · next name hgroup =>
          cases hsplit
          obtain ⟨hnamed, hmarker⟩ := markerText_of_groupOfMarker? hgroup
          obtain rfl := Text.dropStart?_eq_some_iff.mp hmarked
          obtain ⟨-, rfl⟩ := Text.cutAt?_eq_some_iff.mp hcut
          have hkey : "[" ++ (marker ++ String.singleton ']' ++ rest) =
              markerText (some name) ++ rest := by
            rw [hmarker, ← String.append_assoc, ← String.append_assoc]
            rfl
          exact hkey ▸ .marked hnamed rest
        · cases hsplit
  · intro hbegins
    cases hbegins with
    | unmarked plain =>
      unfold splitMarker
      rw [Text.dropStart?_eq_none_iff.mpr plain]
    | @marked name hnamed =>
      obtain ⟨marker, hclosed, hgroup, hmarker⟩ := exists_marker hnamed
      have hstart : Text.dropStart? "[" (markerText (some name) ++ rest)
          = some (marker ++ String.singleton ']' ++ rest) := by
        rw [Text.dropStart?_eq_some_iff, hmarker, ← String.append_assoc, ← String.append_assoc]
        rfl
      have hcut : Text.cutAt? ']' (marker ++ String.singleton ']' ++ rest) = some (marker, rest) :=
        Text.cutAt?_eq_some_iff.mpr ⟨hclosed, rfl⟩
      unfold splitMarker
      simp only [hstart, hcut, hgroup]

/-- Two underscores before an operator are one before it, and one at the end of what is left. -/
theorem append_doubled (field word : String) :
    field ++ "__" ++ word = field ++ "_" ++ "_" ++ word := by
  have hdouble : "__" = "_" ++ "_" := rfl
  rw [hdouble, ← String.append_assoc]

/-- A field is left before an operator when one or two underscores stand between the two. -/
theorem fieldBefore?_eq_some_iff {op : Operator} {rest field : String} :
    fieldBefore? op rest = some field ↔
      field ≠ "" ∧ (rest = field ++ "__" ++ op.word ∨
        rest = field ++ "_" ++ op.word ∧ ¬ "_".toList <:+ field.toList) := by
  have hends : ∀ before : String, Text.dropEnd? ("_" ++ op.word) rest = some before ↔
      rest = before ++ "_" ++ op.word := by
    intro before
    rw [Text.dropEnd?_eq_some_iff, String.append_assoc]
  unfold fieldBefore?
  constructor
  · intro hfield
    obtain ⟨before, hbefore, hleft⟩ := Option.bind_eq_some_iff.mp hfield
    obtain rfl := (hends before).mp hbefore
    rw [Option.ite_none_left_eq_some, Option.some.injEq] at hleft
    refine ⟨hleft.2 ▸ hleft.1, ?_⟩
    rcases Text.dropEnd_eq_iff.mp hleft.2 with rfl | ⟨rfl, hopen⟩
    · exact .inl (append_doubled field op.word).symm
    · exact .inr ⟨rfl, hopen⟩
  · rintro ⟨hne, hrest⟩
    have hdropped : ∃ before, Text.dropEnd? ("_" ++ op.word) rest = some before ∧
        Text.dropEnd "_" before = field := by
      rcases hrest with rfl | ⟨rfl, hopen⟩
      · exact ⟨field ++ "_", (hends _).mpr (append_doubled field op.word),
          Text.dropEnd_eq_iff.mpr (.inl rfl)⟩
      · exact ⟨field, (hends _).mpr rfl, Text.dropEnd_eq_iff.mpr (.inr ⟨rfl, hopen⟩)⟩
    obtain ⟨before, hbefore, hfield⟩ := hdropped
    simp only [hbefore, Option.bind_eq_bind, Option.bind_some, hfield, if_neg hne]

/-- At most one operator leaves a field, as the word after the last underscore tells it. -/
theorem fieldBefore?_functional {op op' : Operator} {rest field field' : String}
    (hfield : fieldBefore? op rest = some field) (hfield' : fieldBefore? op' rest = some field') :
    op = op' ∧ field = field' := by
  have hends : ∀ {op : Operator} {field : String}, fieldBefore? op rest = some field →
      ∃ before, rest = before ++ String.singleton '_' ++ op.word := by
    intro op field hfield
    rcases (fieldBefore?_eq_some_iff.mp hfield).2 with hrest | ⟨hrest, -⟩
    · exact ⟨field ++ "_", hrest.trans (append_doubled field op.word)⟩
    · exact ⟨field, hrest⟩
  obtain ⟨before, hrest⟩ := hends hfield
  obtain ⟨before', hrest'⟩ := hends hfield'
  have hword := (Text.append_singleton_append_inj op.underscore_not_mem_word
    op'.underscore_not_mem_word (hrest.symm.trans hrest')).2
  obtain rfl := Operator.word_injective hword
  exact ⟨rfl, Option.some.inj (hfield.symm.trans hfield')⟩

/-- The order in which the operators are tried does not matter. -/
theorem splitOperator_of_fieldBefore? {op : Operator} {rest field : String}
    (hfield : fieldBefore? op rest = some field) : splitOperator rest = (field, op) := by
  unfold splitOperator
  cases hfound : Operator.longestFirst.findSome? fun op => (fieldBefore? op rest).map (·, op) with
  | none =>
    have hnone := List.findSome?_eq_none_iff.mp hfound op op.mem_longestFirst
    rw [hfield] at hnone
    cases hnone
  | some found =>
    obtain ⟨_, op', _, -, hop', -⟩ := List.findSome?_eq_some_iff.mp hfound
    obtain ⟨field', hfield', rfl⟩ := Option.map_eq_some_iff.mp hop'
    obtain ⟨rfl, rfl⟩ := fieldBefore?_functional hfield hfield'
    rfl

/-- Without an operator that leaves a field, the whole is the field. -/
theorem splitOperator_of_none {rest : String} (hnone : ∀ op, fieldBefore? op rest = none) :
    splitOperator rest = (rest, .eq) := by
  have hfound : Operator.longestFirst.findSome?
      (fun op => (fieldBefore? op rest).map (·, op)) = none :=
    List.findSome?_eq_none_iff.mpr fun op _ => by rw [hnone op, Option.map_none]
  rw [splitOperator, hfound, Option.getD_none]

private theorem fieldBefore?_eq_none_iff {op : Operator} {rest : String} :
    fieldBefore? op rest = none ↔
      ∀ before, rest = before ++ "_" ++ op.word → before = "" ∨ before = "_" := by
  constructor
  · intro hnone before hrest
    by_contra! hbefore
    have hnever := Option.eq_none_iff_forall_ne_some.mp hnone (Text.dropEnd "_" before)
    refine hnever (fieldBefore?_eq_some_iff.mpr ?_)
    rcases Text.dropEnd_eq_iff.mp (Eq.refl (Text.dropEnd "_" before)) with
      hended | ⟨hwhole, hopen⟩
    · refine ⟨fun hempty => hbefore.2 ?_, .inl ?_⟩
      · rw [hended, hempty]
        rfl
      · rw [append_doubled, ← hended, hrest]
    · rw [← hwhole]
      exact ⟨hbefore.1, .inr ⟨hrest, hopen⟩⟩
  · intro hbefore
    refine Option.eq_none_iff_forall_ne_some.mpr fun field hfield => ?_
    obtain ⟨hne, hrest | ⟨hrest, hopen⟩⟩ := fieldBefore?_eq_some_iff.mp hfield
    · rw [append_doubled] at hrest
      rcases hbefore (field ++ "_") hrest with hempty | hone
      · exact absurd (congrArg String.length hempty) (by simp)
      · exact hne ((String.append_left_inj "_").mp hone)
    · rcases hbefore field hrest with hempty | rfl
      · exact hne hempty
      · exact hopen List.suffix_rfl

/-- The operator is taken off where the grammar lets a key end with it. -/
theorem splitOperator_eq_iff {rest field : String} {op : Operator} :
    splitOperator rest = (field, op) ↔ Ends rest field op := by
  constructor
  · intro hsplit
    by_cases hleft : ∃ op field, fieldBefore? op rest = some field
    · obtain ⟨op', field', hfield⟩ := hleft
      rw [splitOperator_of_fieldBefore? hfield, Prod.mk.injEq] at hsplit
      obtain ⟨rfl, rfl⟩ := hsplit
      obtain ⟨hne, rfl | ⟨rfl, hopen⟩⟩ := fieldBefore?_eq_some_iff.mp hfield
      · exact .doubled hne op'
      · exact .single hne hopen op'
    · have hnone : ∀ op, fieldBefore? op rest = none := by
        intro op
        exact Option.eq_none_iff_forall_ne_some.mpr fun field hfield =>
          hleft ⟨op, field, hfield⟩
      rw [splitOperator_of_none hnone, Prod.mk.injEq] at hsplit
      obtain ⟨rfl, rfl⟩ := hsplit
      exact .bare fun before op => fieldBefore?_eq_none_iff.mp (hnone op) before
  · intro hends
    cases hends with
    | doubled hne op =>
      exact splitOperator_of_fieldBefore? (fieldBefore?_eq_some_iff.mpr ⟨hne, .inl rfl⟩)
    | single hne hopen op =>
      exact splitOperator_of_fieldBefore?
        (fieldBefore?_eq_some_iff.mpr ⟨hne, .inr ⟨rfl, hopen⟩⟩)
    | bare hnone =>
      exact splitOperator_of_none fun op => fieldBefore?_eq_none_iff.mpr
        fun before => hnone before op

private theorem asBool_text_eq_some_iff {value : String} {b : Bool} :
    (Literal.text value).asBool = some b ↔ Text.asciiLowercase value = Json.boolText b := by
  have hwords : Json.boolText true = "true" ∧ Json.boolText false = "false" := ⟨rfl, rfl⟩
  simp only [Literal.asBool]
  split
  · next htrue => cases b <;> simp [htrue, hwords]
  · next htrue =>
    split
    · next hfalse => cases b <;> simp [hfalse, hwords]
    · next hfalse => cases b <;> simp [htrue, hfalse, hwords]

/-- The value of a text is the literal that the operator takes from it. -/
theorem parseValue_text_eq_ok_iff {key value : String} {op : Operator} {literal : Literal} :
    parseValue key op (.text value) = .ok literal ↔ Takes op value literal := by
  unfold parseValue
  constructor
  · intro hvalue
    split at hvalue
    · next hop =>
      subst hop
      split at hvalue
      · next b hbool =>
        cases hvalue
        exact .truth b (asBool_text_eq_some_iff.mp hbool)
      · cases hvalue
    · next hop =>
      split at hvalue
      · next hlist =>
        cases hvalue
        exact .items hlist value
      · next hlist =>
        cases hvalue
        exact .text hop (Bool.eq_false_iff.mpr hlist) value
  · intro htakes
    cases htakes with
    | truth b hword =>
      have hbool := asBool_text_eq_some_iff.mpr hword
      simp only [if_true, RawValue.literal, hbool]
    | items hlist =>
      have hop : op ≠ .isNull := by
        rintro rfl
        cases hlist
      simp only [if_neg hop, if_pos hlist, RawValue.literal]
    | text hop hlist => simp [hop, hlist, RawValue.literal]

/-- Every operator takes every text, but `isnull` takes the words for truth values only. -/
theorem exists_takes_iff {op : Operator} {value : String} :
    (∃ literal, Takes op value literal) ↔
      (op = .isNull → Text.asciiLowercase value = "true" ∨
        Text.asciiLowercase value = "false") := by
  constructor
  · rintro ⟨literal, htakes⟩ rfl
    cases htakes with
    | truth b hword => cases b <;> simp [hword, Json.boolText]
    | items hlist => cases hlist
    | text hop => exact absurd rfl hop
  · intro htruth
    by_cases hnull : op = .isNull
    · subst hnull
      rcases htruth rfl with hword | hword
      · exact ⟨_, .truth true hword⟩
      · exact ⟨_, .truth false hword⟩
    · cases hlist : op.takesList with
      | true => exact ⟨_, .items hlist value⟩
      | false => exact ⟨_, .text hnull hlist value⟩

/-- A key and a text are read as a clause exactly when the key begins with the marker of its group,
    ends with its operator, and has the text of its path between them, and the operator takes its
    literal from the text. -/
theorem parse_text_eq_ok_iff {key value : String} {c : Clause} :
    parse key (.text value) = .ok c ↔
      c.path.IsWritable ∧ Takes c.op value c.value ∧
        ∃ rest, Begins key c.group rest ∧ Ends rest c.path.text c.op := by
  unfold parse
  rw [bind_eq_ok_iff]
  constructor
  · rintro ⟨⟨group, rest⟩, hmarker, hparse⟩
    obtain ⟨path, hpath, hparse⟩ := bind_eq_ok_iff.mp hparse
    obtain ⟨literal, hvalue, hclause⟩ := bind_eq_ok_iff.mp hparse
    cases hclause
    obtain ⟨hwritable, htext⟩ := FieldPath.parse_eq_ok_iff.mp hpath
    refine ⟨hwritable, parseValue_text_eq_ok_iff.mp hvalue, rest,
      splitMarker_eq_ok_iff.mp hmarker, ?_⟩
    exact splitOperator_eq_iff.mp (Prod.ext htext.symm rfl)
  · rintro ⟨hwritable, htakes, rest, hbegins, hends⟩
    have hpath : FieldPath.parse c.path.text = .ok c.path :=
      FieldPath.parse_eq_ok_iff.mpr ⟨hwritable, rfl⟩
    refine ⟨(c.group, rest), splitMarker_eq_ok_iff.mpr hbegins, ?_⟩
    simp only [splitOperator_eq_iff.mpr hends, hpath, parseValue_text_eq_ok_iff.mpr htakes]
    rfl

/-- Items written as a comma list are read as they were. -/
theorem commaItems_intercalate {texts : List String} (hitems : ∀ text ∈ texts, isItem text) :
    Text.commaItems (",".intercalate texts) = texts := by
  have hitem : ∀ text ∈ texts, text ≠ "" ∧ ',' ∉ text.toList ∧
      Text.trim text = text := by
    intro text htext
    have := hitems text htext
    simpa [isItem, and_assoc] using this
  rcases texts with - | ⟨first, rest⟩
  · decide
  · have hsplit : Text.split ',' (",".intercalate (first :: rest)) = first :: rest :=
      Text.split_intercalate (List.cons_ne_nil _ _) fun text htext => (hitem text htext).2.1
    have htrim : (first :: rest).map Text.trim = first :: rest :=
      (List.map_congr_left fun text htext => (hitem text htext).2.2).trans (List.map_id _)
    rw [Text.commaItems, hsplit, htrim, List.filter_eq_self]
    intro text htext
    exact decide_eq_true (hitem text htext).1

private theorem eq_map_text {items : List Literal}
    (hitems : ∀ item ∈ items, ∃ text, item = .text text ∧ isItem text) :
    ∃ texts : List String, items = texts.map .text ∧ ∀ text ∈ texts, isItem text := by
  induction items with
  | nil => exact ⟨[], rfl, by simp⟩
  | cons item rest ih =>
    obtain ⟨⟨text, rfl, htext⟩, hrest⟩ := List.forall_mem_cons.mp hitems
    obtain ⟨texts, rfl, htexts⟩ := ih hrest
    exact ⟨text :: texts, rfl, List.forall_mem_cons.mpr ⟨htext, htexts⟩⟩

private theorem valueText_list (texts : List String) :
    valueText (.list (texts.map .text)) = ",".intercalate texts := by
  have hread : (texts.map Literal.text).filterMap Literal.asText = texts := by
    rw [List.filterMap_map]
    exact List.filterMap_some
  rw [valueText, hread]

/-- What is written for a value is taken as that value. -/
theorem takes_valueText {op : Operator} {value : Literal} (htakes : takesValue op value) :
    Takes op (valueText value) value := by
  cases value with
  | null | num _ => exact htakes.elim
  | bool b =>
    obtain rfl : op = .isNull := htakes
    refine .truth b ?_
    cases b <;> decide
  | text s => exact .text htakes.1 (by simpa using htakes.2) s
  | list items =>
    obtain ⟨hlist, hitems⟩ := htakes
    obtain ⟨texts, rfl, htexts⟩ := eq_map_text hitems
    have htakes : Takes op (",".intercalate texts) _ := .items hlist _
    rw [commaItems_intercalate htexts] at htakes
    rwa [valueText_list]

/-- Only the first character of a key decides whether a marker begins it. -/
theorem begins_append {field : String} (hne : field ≠ "")
    (hplain : Text.dropStart? "[" field = none) (ending : String) :
    Begins (field ++ ending) none (field ++ ending) := by
  have hfield : ¬ ['['] <+: field.toList := Text.dropStart?_eq_none_iff.mp hplain
  have hchars : field.toList ≠ [] := fun hnil => hne (String.toList_inj.mp hnil)
  obtain ⟨c, rest, hchars⟩ := List.exists_cons_of_ne_nil hchars
  refine .unmarked fun (hmarked : ['['] <+: (field ++ ending).toList) => hfield ?_
  rw [String.toList_append, hchars, List.cons_append] at hmarked
  obtain ⟨hc, -⟩ := List.cons_prefix_cons.mp hmarked
  rw [hchars, ← hc]
  exact List.cons_prefix_cons.mpr ⟨rfl, List.nil_prefix⟩

/-- What is written for a clause is read as the clause. -/
theorem parse_key {c : Clause} (hwritable : c.IsWritable) :
    parse c.key (.text (valueText c.value)) = .ok c := by
  have htext : c.path.text ≠ "" := FieldPath.text_ne_empty hwritable.path
  rw [parse_text_eq_ok_iff]
  refine ⟨hwritable.path, takes_valueText hwritable.value, c.path.text ++ "__" ++ c.op.word, ?_,
    .doubled htext c.op⟩
  have hkey : c.key = markerText c.group ++ (c.path.text ++ "__" ++ c.op.word) := by
    simp only [key, String.append_assoc]
  rw [hkey]
  cases hgroup : c.group with
  | none =>
    rw [markerText, String.empty_append, String.append_assoc]
    exact begins_append htext (hwritable.unmarked hgroup) _
  | some name => exact .marked (hwritable.group name hgroup) _

/-- A key and a text are read as a clause exactly when the key is the marker of a group or none, the
    text of a path, and an operator or none, and the text is a truth value where the operator is
    `isnull`. The clauses that have a written form are read from it as they are. -/
theorem parse_text_reads_grammar :
    (∀ key value : String, (∃ c, parse key (.text value) = .ok c) ↔
      ∃ group rest field op, Begins key group rest ∧ Ends rest field op ∧
        (∃ path : FieldPath, path.IsWritable ∧ path.text = field) ∧
        (op = .isNull → Text.asciiLowercase value = "true" ∨
          Text.asciiLowercase value = "false")) ∧
    ∀ c : Clause, c.IsWritable → parse c.key (.text (valueText c.value)) = .ok c := by
  refine ⟨fun key value => ⟨?_, ?_⟩, fun c => parse_key⟩
  · rintro ⟨c, hparse⟩
    obtain ⟨hpath, htakes, rest, hbegins, hends⟩ := parse_text_eq_ok_iff.mp hparse
    exact ⟨c.group, rest, c.path.text, c.op, hbegins, hends, ⟨c.path, hpath, rfl⟩,
      exists_takes_iff.mp ⟨c.value, htakes⟩⟩
  · rintro ⟨group, rest, field, op, hbegins, hends, ⟨path, hpath, rfl⟩, htruth⟩
    obtain ⟨literal, htakes⟩ := exists_takes_iff.mpr htruth
    exact ⟨⟨path, op, literal, group⟩,
      parse_text_eq_ok_iff.mpr ⟨hpath, htakes, rest, hbegins, hends⟩⟩

/-- A clause on fields that look like operators. -/
def lookalike : Clause :=
  ⟨⟨["author_in"], "_gte_"⟩, .isIn, .list [.text "a_eq", .text "b c"], some "vis-1"⟩

/-- A relation and a field whose names end like operators are read back from their key. -/
theorem parse_text_reads_lookalike :
    lookalike.IsWritable ∧
      parse "[or:vis-1]author_in._gte___in" (.text "a_eq,b c") = .ok lookalike := by
  have hwritable : lookalike.IsWritable := by
    refine ⟨⟨by decide, by decide, by decide⟩, ?_, by decide, rfl, ?_⟩
    · rintro name ⟨⟩
      exact .inr (by decide)
    · exact List.forall_mem_cons.mpr ⟨⟨"a_eq", rfl, by decide⟩,
        List.forall_mem_singleton.mpr ⟨"b c", rfl, by decide⟩⟩
  exact ⟨hwritable, parse_text_reads_grammar.2 lookalike hwritable⟩

end Clause

end DocQuery
