import DocQuery.Proofs.Mongo.Flat

namespace DocQuery.Mongo

private theorem Key.escape_eq_iff_of_mem_reserved {name other : String}
    (hname : name ∈ reserved) :
    escape other = name ↔ other = name := by
  have hkept : ∀ name ∈ reserved, escape name = name := by decide
  constructor
  · rintro rfl
    exact (escape_eq_self_of_mem_reserved hname).symm
  · rintro rfl
    exact hkept other hname

namespace Stored

/-- Only a text is stored as a text, and no value is stored as a date. -/
theorem escapeValue_of_ofJson :
    (value : Json) → {written : Bson} → ofJson value = .ok written →
    (∀ s, Key.escapeValue written = .str s ↔ value = .str s) ∧
      ∀ millis, Key.escapeValue written ≠ .date millis
  | .null, _, hwritten | .bool _, _, hwritten | .num (.real _ _), _, hwritten => by
    cases hwritten
    exact ⟨fun _ => iff_of_false nofun nofun, nofun⟩
  | .num (.int value _), _, hwritten => by
    rw [ofJson] at hwritten
    split at hwritten
    · cases hwritten
      exact ⟨fun _ => iff_of_false nofun nofun, nofun⟩
    · cases hwritten
  | .str own, _, hwritten => by
    cases hwritten
    have hkept : Key.escapeValue (.str own) = .str own := rfl
    exact ⟨fun s => by rw [hkept, Bson.str.injEq, Json.str.injEq], nofun⟩
  | .arr _, _, hwritten | .obj _, _, hwritten => by
    obtain ⟨_, -, rfl⟩ := map_eq_ok_iff.mp hwritten
    exact ⟨fun _ => iff_of_false nofun nofun, nofun⟩

variable {d : Document} {stored : List (String × Bson)}

/-- Under a name of the header stands its entry, or what is written for the data of that name. -/
theorem get?_cases (hdistinct : (Entries.names d.data).Nodup) (hstored : ofDocument d = .ok stored)
    {name : String} (hname : name ∈ Key.reserved) :
    Entries.get? name d.data = none ∧ Entries.get? name stored = Entries.get? name (header d) ∨
      ∃ value written, Entries.get? name d.data = some value ∧ ofJson value = .ok written ∧
        Entries.get? name stored = some (Key.escapeValue written) := by
  obtain ⟨data, hdata, -⟩ := bind_eq_ok_iff.mp hstored
  have hget :=
    get?_of_ofDocument hdistinct hdata hstored fun _ _ => Key.escape_eq_iff_of_mem_reserved hname
  have hvalue := rel_get?_of_ofJsonMembers hdata name
  generalize Entries.get? name d.data = value at hvalue
  generalize Entries.get? name data = written at hget hvalue
  cases hvalue with
  | none => exact .inl ⟨rfl, hget⟩
  | some hwritten => exact .inr ⟨_, _, rfl, hwritten, hget⟩

/-- The id is stored under its name unless data with that name is something else. -/
theorem get?_id_iff (hdistinct : (Entries.names d.data).Nodup)
    (hstored : ofDocument d = .ok stored) :
    Entries.get? Key.id stored = some (.str d.id) ↔
      ∀ value, Entries.get? Key.id d.data = some value → value = .str d.id := by
  have hreserved : Key.id ∈ Key.reserved := by decide
  rcases get?_cases hdistinct hstored hreserved with
    ⟨hnone, hget⟩ | ⟨value, written, hvalue, hwritten, hget⟩
  · rw [hget, hnone]
    exact iff_of_true rfl nofun
  · rw [hget, hvalue, Option.some.injEq, (escapeValue_of_ofJson value hwritten).1]
    exact ⟨fun hid other hother => Option.some.inj hother ▸ hid, fun hid => hid value rfl⟩

section Instants

variable {name : String} {t : Instant}

/-- An instant is stored under its name exactly where no data has that name. -/
theorem get?_date_iff (hdistinct : (Entries.names d.data).Nodup)
    (hstored : ofDocument d = .ok stored) (hname : name ∈ Key.reserved)
    (hheader : Entries.get? name (header d) = some (.date t.epochMillis)) :
    Entries.get? name stored = some (.date t.epochMillis) ↔ name ∉ Entries.names d.data := by
  rw [← Entries.get?_eq_none_iff]
  rcases get?_cases hdistinct hstored hname with
    ⟨hnone, hget⟩ | ⟨value, written, hvalue, hwritten, hget⟩
  · rw [hget, hnone]
    exact iff_of_true hheader rfl
  · rw [hget, hvalue]
    exact iff_of_false
      (fun hdate => (escapeValue_of_ofJson value hwritten).2 _ (Option.some.inj hdate)) nofun

/-- Behind data of its name an instant is read as the start of 1970. -/
theorem instantOf_eq_iff (hdistinct : (Entries.names d.data).Nodup)
    (hstored : ofDocument d = .ok stored) (hname : name ∈ Key.reserved)
    (hheader : Entries.get? name (header d) = some (.date t.epochMillis)) (ht : t.IsDate) :
    instantOf name stored = t ↔ name ∉ Entries.names d.data ∨ t = Instant.epoch := by
  rw [← Entries.get?_eq_none_iff]
  rcases get?_cases hdistinct hstored hname with
    ⟨hnone, hget⟩ | ⟨value, written, hvalue, hwritten, hget⟩
  · rw [instantOf, hget, hheader, hnone]
    exact iff_of_true (Instant.ofEpochMillisClamped_epochMillis ht) (.inl rfl)
  · have hepoch : instantOf name stored = Instant.epoch := by
      rw [instantOf, hget]
      split
      · next millis hdate =>
        exact absurd (Option.some.inj hdate) ((escapeValue_of_ofJson value hwritten).2 _)
      · rfl
    rw [hepoch, hvalue, eq_comm]
    exact (or_iff_right (Option.some_ne_none value)).symm

end Instants

/-- Whether no data takes the place of the id or of an instant: data under the stored name of the id
    is the id, and there is none under those of the instants. -/
structure KeepsHeader (d : Document) : Prop where
  id : ∀ value, Entries.get? Key.id d.data = some value → value = .str d.id
  created : Key.created ∉ Entries.names d.data
  updated : Key.updated ∉ Entries.names d.data

/-- The id and the instants are stored as they are unless data takes their place. Data in the place
    of the id comes back as the id of the document, and an instant behind data comes back as the
    start of 1970. -/
theorem ofDocument_header_iff (collection : String) (hdistinct : (Entries.names d.data).Nodup)
    (hstored : ofDocument d = .ok stored) :
    ((∀ entry ∈ header d, Entries.get? entry.1 stored = some entry.2) ↔ KeepsHeader d) ∧
      ∃ back, toDocument collection stored = .ok back ∧
        (back.id = d.id ↔ ∀ value written, Entries.get? Key.id d.data = some value →
          ofJson value = .ok written → idOf (Key.escapeValue written) = d.id) ∧
        (d.created.IsDate →
          (back.created = d.created ↔
            Key.created ∉ Entries.names d.data ∨ d.created = Instant.epoch)) ∧
        (d.updated.IsDate →
          (back.updated = d.updated ↔
            Key.updated ∉ Entries.names d.data ∨ d.updated = Instant.epoch)) := by
  constructor
  · simp only [header, List.forall_mem_cons, List.not_mem_nil, false_implies,
      implies_true, and_true]
    rw [get?_id_iff hdistinct hstored,
      get?_date_iff hdistinct hstored (by decide) (get?_created_header d),
      get?_date_iff hdistinct hstored (by decide) (get?_updated_header d)]
    constructor
    · rintro ⟨hid, hcreated, hupdated⟩
      exact ⟨hid, hcreated, hupdated⟩
    · exact fun hkeeps => ⟨hkeeps.id, hkeeps.created, hkeeps.updated⟩
  · have hcreated := instantOf_eq_iff hdistinct hstored (by decide) (get?_created_header d)
    have hupdated := instantOf_eq_iff hdistinct hstored (by decide) (get?_updated_header d)
    have hreserved : Key.id ∈ Key.reserved := by decide
    rcases get?_cases hdistinct hstored hreserved with
      ⟨hnone, hget⟩ | ⟨value, written, hvalue, hwritten, hget⟩
    · refine ⟨_, by rw [toDocument, hget]; rfl, ?_, hcreated, hupdated⟩
      refine iff_of_true rfl fun value _ hvalue => ?_
      rw [hnone] at hvalue
      cases hvalue
    · refine ⟨_, by rw [toDocument, hget], ?_, hcreated, hupdated⟩
      rw [hvalue]
      constructor
      · rintro hid other _ hother hwritten'
        cases hother
        cases hwritten.symm.trans hwritten'
        exact hid
      · exact fun hid => hid value written rfl hwritten

/-- A document whose data has its own id under the stored name, and an instant under a name that is
    none of the stored ones. -/
def restated : Document where
  id := "p1"
  collection := "posts"
  data := [("_id", .str "p1"), ("created_at.", .str "2024-03-01T10:00:00Z")]
  created := ⟨1709287200, 0, Instant.epoch.milli_lt⟩
  updated := ⟨1709287260, 480, by decide⟩

/-- Data with the id under its stored name changes nothing, and neither does a name that only
    resembles a stored one. -/
theorem ofDocument_header_restated :
    (Entries.names restated.data).Nodup ∧ restated.created.IsDate ∧ restated.updated.IsDate ∧
      ∃ stored, ofDocument restated = .ok stored ∧
        (∀ entry ∈ header restated, Entries.get? entry.1 stored = some entry.2) ∧
        ∃ back, toDocument "posts" stored = .ok back ∧ back.id = restated.id ∧
          back.created = restated.created ∧ back.updated = restated.updated := by
  have hdistinct : (Entries.names restated.data).Nodup := by decide
  have hcreated : restated.created.IsDate := ⟨by decide, by decide, by decide⟩
  have hupdated : restated.updated.IsDate := ⟨by decide, by decide, by decide⟩
  have hkeeps : KeepsHeader restated := by
    refine ⟨fun value hvalue => ?_, by decide, by decide⟩
    cases hvalue
    rfl
  obtain ⟨hheader, back, hback, hid, hcreated', hupdated'⟩ :=
    ofDocument_header_iff "posts" hdistinct (show ofDocument restated = .ok _ from rfl)
  refine ⟨hdistinct, hcreated, hupdated, _, rfl, hheader.mpr hkeeps, back, hback, hid.mpr ?_,
    (hcreated' hcreated).mpr (.inl hkeeps.created),
    (hupdated' hupdated).mpr (.inl hkeeps.updated)⟩
  intro value written hvalue hwritten
  cases hvalue
  cases hwritten
  rfl

/-- A document whose data has another id under the stored name. -/
def displaced : Document where
  id := "p1"
  collection := "c"
  data := [("_id", .str "p2")]
  created := ⟨1704067200, 0, Instant.epoch.milli_lt⟩
  updated := ⟨1704067200, 0, Instant.epoch.milli_lt⟩

/-- The document is stored as another one, and comes back as that. -/
theorem ofDocument_header_displaced :
    (Entries.names displaced.data).Nodup ∧ ∃ stored, ofDocument displaced = .ok stored ∧
      Entries.get? Key.id stored = some (.str "p2") ∧
      ∃ back, toDocument "c" stored = .ok back ∧ back.id ≠ displaced.id :=
  ⟨by decide, _, rfl, rfl, _, rfl, by decide⟩

end Stored

end DocQuery.Mongo
