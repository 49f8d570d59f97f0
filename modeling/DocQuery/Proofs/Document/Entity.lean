import DocQuery.Proofs.Document
import DocQuery.Proofs.Document.Instants
import DocQuery.Proofs.Entries

namespace DocQuery

namespace Entries

variable {α : Type} {name other : String} {entries after : List (String × α)}

private theorem mem_names_swapErase_iff :
    other ∈ names (swapErase name entries) ↔ other ≠ name ∧ other ∈ names entries := by
  have hsame : other ∈ names (swapErase name entries) ↔ other ∈ names (erase name entries) :=
    ((swapErase_perm name entries).map _).mem_iff
  rw [hsame, ← not_iff_not, ← get?_eq_none_iff, get?_erase, not_and_or,
    not_not, ← get?_eq_none_iff]
  split
  · next heq => exact iff_of_true rfl (.inl heq.symm)
  · next hne => exact (or_iff_right (Ne.symm hne)).symm

/-- Leaving out a name that stands once moves only what comes after it. -/
theorem swapErase_append_cons (value : α) (hbefore : name ∉ names entries)
    (hafter : name ∉ names after) :
    swapErase name (entries ++ (name, value) :: after) =
      entries ++ (after.getLast?.toList ++ after.dropLast) := by
  induction entries with
  | nil => rw [List.nil_append, List.nil_append, swapErase, if_pos rfl, erase_of_not_mem hafter]
  | cons entry rest ih =>
    obtain ⟨hname, hrest⟩ := List.ne_and_not_mem_of_not_mem_cons hbefore
    rw [List.cons_append, swapErase, if_neg (Ne.symm hname), ih hrest, List.cons_append]

private theorem swapErase_append_singleton (value : α) (hbefore : name ∉ names entries) :
    swapErase name (entries ++ [(name, value)]) = entries :=
  (swapErase_append_cons value hbefore List.not_mem_nil).trans (List.append_nil entries)

end Entries

namespace Document

/-- Whether the data has none of the names that the flat form shows beside it. -/
structure IsApart (d : Document) : Prop where
  id : idField ∉ Entries.names d.data
  created : createdField ∉ Entries.names d.data
  updated : updatedField ∉ Entries.names d.data

variable {collection : String} {members : List (String × Json)} {fresh : Fresh} {d : Document}

/-- Reading an object takes the names out of the data that the flat form shows beside it. -/
theorem isApart_of_ofJson (hd : ofJson collection (.obj members) fresh = .ok d) :
    d.collection = collection ∧ d.IsApart := by
  obtain ⟨_, _, _, -, -, -, rfl⟩ := ofJson_eq_ok_iff.mp hd
  refine ⟨rfl, ?_, ?_, ?_⟩
  all_goals
    simp only [dataMembers, Entries.mem_names_swapErase_iff]
    simp

/-- The flat form has the members for the id and the instants behind the data. -/
theorem IsApart.entityMembers_eq (hd : d.IsApart) :
    d.entityMembers = d.data ++
      [(idField, .str d.id), (createdField, .str d.created.text),
        (updatedField, .str d.updated.text)] := by
  have hcreated : createdField ∉ Entries.names (d.data ++ [(idField, .str d.id)]) := by
    rw [Entries.names_append, List.mem_append, not_or]
    exact ⟨hd.created, show createdField ∉ [idField] by decide⟩
  have hupdated : updatedField ∉
      Entries.names
      (d.data ++ [(idField, .str d.id)] ++ [(createdField, .str d.created.text)]) := by
    rw [List.append_assoc, Entries.names_append, List.mem_append, not_or]
    exact ⟨hd.updated, show updatedField ∉ [idField, createdField] by decide⟩
  rw [entityMembers, Entries.set_of_not_mem _ hd.id, Entries.set_of_not_mem _ hcreated,
    Entries.set_of_not_mem _ hupdated, List.append_assoc, List.append_assoc]
  rfl

/-- What is left of the flat form when it is read is the data, in its order. -/
theorem IsApart.dataMembers_entityMembers (hd : d.IsApart) :
    dataMembers d.entityMembers = d.data := by
  have hcreated : createdField ∉ Entries.names
      (d.data ++ [(updatedField, .str d.updated.text)]) := by
    rw [Entries.names_append, List.mem_append, not_or]
    exact ⟨hd.created, show createdField ∉ [updatedField] by decide⟩
  have hid : idField ∉
      Entries.names [(createdField, Json.str d.created.text),
        (updatedField, .str d.updated.text)] :=
    show idField ∉ [createdField, updatedField] by decide
  -- the members for the instants change places when that for the id leaves
  calc dataMembers d.entityMembers
      = Entries.swapErase updatedField (Entries.swapErase createdField
          (d.data ++ ([(updatedField, .str d.updated.text)] ++
            [(createdField, .str d.created.text)]))) := by
        rw [dataMembers, hd.entityMembers_eq, Entries.swapErase_append_cons _ hd.id hid]
        rfl
    _ = Entries.swapErase updatedField (d.data ++ [(updatedField, .str d.updated.text)]) := by
        rw [← List.append_assoc, Entries.swapErase_append_singleton _ hcreated]
    _ = d.data := Entries.swapErase_append_singleton _ hd.updated

private theorem readId?_entityMembers (d : Document) :
    readId? d.entityMembers = .ok (some d.id) := by
  rw [readId?, get?_entityMembers]
  rfl

/-- The text of an instant is refused if its year has a sign. -/
theorem readInstant?_entityMembers {field : String} (hfield : Mongo.isInstantField field = true)
    (hproper : (d.instant field).IsProper) :
    readInstant? field d.entityMembers =
      if (d.instant field).HasPlainYear then .ok (some (d.instant field))
      else .error (.badInstant field (d.instant field).text) := by
  rw [readInstant?, get?_entityMembers, field?_of_isInstantField hfield]
  dsimp only
  rw [Instant.readRfc3339?_text_eq hproper]
  by_cases hyear : (d.instant field).HasPlainYear
  · rw [if_pos hyear, if_pos hyear]
  · rw [if_neg hyear, if_neg hyear]

/-- A flat form is read as the document that it is of, unless the text of an instant is refused. -/
theorem IsApart.ofJson_entity (hd : d.IsApart) (hcreated : d.created.IsProper)
    (hupdated : d.updated.IsProper) (again : Fresh) :
    ofJson d.collection d.entity again =
      if d.created.HasPlainYear then
        if d.updated.HasPlainYear then .ok d else .error (.badInstant updatedField d.updated.text)
      else .error (.badInstant createdField d.created.text) := by
  have hmaking : readInstant? createdField d.entityMembers =
      if d.created.HasPlainYear then .ok (some d.created)
      else .error (.badInstant createdField d.created.text) :=
    readInstant?_entityMembers (show Mongo.isInstantField createdField = true by decide) hcreated
  have hchange : readInstant? updatedField d.entityMembers =
      if d.updated.HasPlainYear then .ok (some d.updated)
      else .error (.badInstant updatedField d.updated.text) :=
    readInstant?_entityMembers (show Mongo.isInstantField updatedField = true by decide) hupdated
  simp only [entity, ofJson, readId?_entityMembers, hmaking, hchange, hd.dataMembers_entityMembers]
  by_cases hyear : d.created.HasPlainYear
  · by_cases hyear' : d.updated.HasPlainYear
    · simp only [hyear, hyear', if_true]
      rfl
    · simp only [hyear, hyear', if_true, if_false]
      rfl
  · simp only [hyear, if_false]
    rfl

/-- An instant whose year has a sign is the time of reading, or it is read from a text that names
    the first or the last day of the plain years. -/
theorem eq_now_or_first_or_last_day (hd : ofJson collection (.obj members) fresh = .ok d)
    {field : String} (hyear : ¬ (d.instant field).HasPlainYear) :
    d.instant field = fresh.now ∨
      ∃ key raw, Entries.get? key members = some (.str raw) ∧
        (Instant.dayText ⟨0, 1, 1⟩ <+: raw.toList ∨
          Instant.dayText ⟨9999, 12, 31⟩ <+: raw.toList) := by
  refine (instant_of_ofJson hd field).imp_right ?_
  rintro ⟨key, raw, hraw, hread⟩
  obtain ⟨-, day, hday⟩ := Instant.readRfc3339?_spec hread
  refine ⟨key, raw, hraw, ?_⟩
  rcases hday.eq_first_or_last hyear with rfl | rfl
  · exact .inl hday.starts
  · exact .inr hday.starts

/-- A document that is read from an object and written as its flat form is read from that as the
    same document: with its id, its data and its instants, and so with its flat form. It is not if
    the year of an instant is before 0 or after 9999, which is written with a sign and refused. Such
    an instant is the time of reading, or an offset has taken it out of the first or the last day of
    these years. -/
theorem ofJson_entity_of_ofJson (hnow : fresh.now.IsProper)
    (hd : ofJson collection (.obj members) fresh = .ok d) (again : Fresh) :
    (ofJson collection d.entity again =
      if d.created.HasPlainYear then
        if d.updated.HasPlainYear then .ok d else .error (.badInstant updatedField d.updated.text)
      else .error (.badInstant createdField d.created.text)) ∧
    ∀ field, ¬ (d.instant field).HasPlainYear → d.instant field = fresh.now ∨
      ∃ key raw, Entries.get? key members = some (.str raw) ∧
        (Instant.dayText ⟨0, 1, 1⟩ <+: raw.toList ∨
          Instant.dayText ⟨9999, 12, 31⟩ <+: raw.toList) := by
  obtain ⟨rfl, hapart⟩ := isApart_of_ofJson hd
  exact ⟨hapart.ofJson_entity (isProper_of_ofJson hnow hd createdField)
    (isProper_of_ofJson hnow hd updatedField) again,
    fun _ => eq_now_or_first_or_last_day hd⟩

/-- The members of a post that was made in a leap second, in a text with an offset and digits that
    are dropped. -/
def leapMembers : List (String × Json) :=
  [("updated_at", .null), ("title", .str "A"),
    ("created_at", .str "2016-12-31T18:59:60.9999-05:00"),
    ("id", .str "p1"), ("tags", .arr [.str "b"])]

/-- The post that is read from the members. -/
def leapPost : Document :=
  ⟨"p1", "posts", [("tags", .arr [.str "b"]), ("title", .str "A")],
    ⟨1483228799, 1999, by decide⟩,
    ⟨1483228799, 1999, by decide⟩⟩

/-- A post of a leap second comes back. -/
theorem ofJson_entity_leapPost :
    ofJson "posts" (.obj leapMembers) ⟨"new", .epoch⟩ = .ok leapPost ∧
    ofJson "posts" leapPost.entity ⟨"other", .epoch⟩ = .ok leapPost := by
  have hread : ofJson "posts" (.obj leapMembers)
      ⟨"new", .epoch⟩ = .ok leapPost := by decide +kernel
  have hagain := (ofJson_entity_of_ofJson (by decide) hread ⟨"other", .epoch⟩).1
  have hyears : leapPost.created.HasPlainYear ∧ leapPost.updated.HasPlainYear := by decide +kernel
  rw [if_pos hyears.1, if_pos hyears.2] at hagain
  exact ⟨hread, hagain⟩

/-- The members of a post that was made before the end of the last plain year, but in UTC after
    it. -/
def lateMembers : List (String × Json) :=
  [("id", .str "p1"), ("created_at", .str "9999-12-31T23:59:59-01:00")]

/-- The post that is read from the members. -/
def latePost : Document :=
  ⟨"p1", "posts", [], ⟨253402304399, 0, Instant.epoch.milli_lt⟩,
    ⟨253402304399, 0, Instant.epoch.milli_lt⟩⟩

/-- The making of the post is written with a sign in front of its year, and refused. -/
theorem ofJson_entity_latePost :
    ofJson "posts" (.obj lateMembers) ⟨"new", .epoch⟩ = .ok latePost ∧
    latePost.entity = .obj [("id", .str "p1"), ("created_at", .str "+10000-01-01T00:59:59.000Z"),
      ("updated_at", .str "+10000-01-01T00:59:59.000Z")] ∧
    ofJson "posts" latePost.entity ⟨"other", .epoch⟩ =
      .error (.badInstant "created_at" "+10000-01-01T00:59:59.000Z") := by
  decide +kernel

end Document

end DocQuery
