import DocQuery.Mongo.Filter
import DocQuery.Proofs.Steps
import DocQuery.Proofs.Time.Reader

namespace DocQuery.Document

/-- The instant that a field shows. -/
def instant (field : String) (d : Document) : Instant :=
  if field = createdField then d.created else d.updated

/-- A field of instants shows the text of the instant, whatever data has its name. -/
theorem field?_of_isInstantField {field : String} (hfield : Mongo.isInstantField field = true)
    (d : Document) :
    d.field? field = some (.str (d.instant field).text) := by
  simp only [Mongo.isInstantField, Bool.or_eq_true, beq_iff_eq] at hfield
  rcases hfield with rfl | rfl <;> rfl

private theorem readInstant?_eq_some {key : String} {members : List (String × Json)} {t : Instant}
    (hread : readInstant? key members = .ok (some t)) :
    ∃ raw, Entries.get? key members = some (.str raw) ∧ Instant.readRfc3339? raw = some t := by
  unfold readInstant? at hread
  split at hread
  · cases hread
  · cases hread
  · next raw hraw =>
    split at hread
    · next hinstant =>
      cases hread
      exact ⟨raw, hraw, hinstant⟩
    · cases hread
  · cases hread

/-- Reading an object gives a document if its id and its instants can be read, and nothing else. -/
theorem ofJson_eq_ok_iff {collection : String} {members : List (String × Json)} {fresh : Fresh}
    {d : Document} :
    ofJson collection (.obj members) fresh = .ok d ↔
      ∃ id created updated, readId? members = .ok id ∧
        readInstant? createdField members = .ok created ∧
        readInstant? updatedField members = .ok updated ∧
        d = ⟨id.getD fresh.id, collection, dataMembers members, created.getD fresh.now,
          (updated <|> created).getD fresh.now⟩ := by
  simp only [ofJson, bind_eq_ok_iff, pure, Except.pure, Except.ok.injEq]
  constructor
  · rintro ⟨id, hid, created, hcreated, updated, hupdated, rfl⟩
    exact ⟨id, created, updated, hid, hcreated, hupdated, rfl⟩
  · rintro ⟨id, created, updated, hid, hcreated, hupdated, rfl⟩
    exact ⟨id, hid, created, hcreated, updated, hupdated, rfl⟩

/-- An instant of a document that is read is read from a member, or it is the time of reading. -/
theorem instant_of_ofJson {collection : String} {members : List (String × Json)} {fresh : Fresh}
    {d : Document} (hd : ofJson collection (.obj members) fresh = .ok d) (field : String) :
    d.instant field = fresh.now ∨
      ∃ key raw, Entries.get? key members = some (.str raw) ∧
        Instant.readRfc3339? raw = some (d.instant field) := by
  obtain ⟨id, created, updated, -, hcreated, hupdated, rfl⟩ := ofJson_eq_ok_iff.mp hd
  have hmaking : created.getD fresh.now = fresh.now ∨
      ∃ key raw, Entries.get? key members = some (.str raw) ∧
        Instant.readRfc3339? raw = some (created.getD fresh.now) := by
    cases created with
    | none => exact .inl rfl
    | some t => exact .inr ⟨createdField, readInstant?_eq_some hcreated⟩
  unfold instant
  split
  · exact hmaking
  · cases updated with
    | none => exact hmaking
    | some t => exact .inr ⟨updatedField, readInstant?_eq_some hupdated⟩

/-- The instants of a document that is read are proper if the time of reading is. -/
theorem isProper_of_ofJson {collection : String} {value : Json} {fresh : Fresh} {d : Document}
    (hnow : fresh.now.IsProper) (hd : ofJson collection value fresh = .ok d) (field : String) :
    (d.instant field).IsProper := by
  cases value with
  | null | bool _ | num _ | str _ | arr _ => cases hd
  | obj members =>
    rcases instant_of_ofJson hd field with hsame | ⟨_, _, -, hread⟩
    · rw [hsame]
      exact hnow
    · exact (Instant.readRfc3339?_spec hread).1

end DocQuery.Document
