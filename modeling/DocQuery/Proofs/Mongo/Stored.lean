import Mathlib.Data.List.Nodup
import DocQuery.Json.Throughout
import DocQuery.Mongo.Stored
import DocQuery.Proofs.Entries
import DocQuery.Proofs.Mongo.Key
import DocQuery.Proofs.Steps

namespace DocQuery

namespace Number

/-- Whether an integer has 64 bits with its sign. -/
def FitsInt64 : Number → Prop
  | .int value _ => value < 0x8000000000000000
  | .real _ _ => True

instance : DecidablePred FitsInt64
  | .int value _ => inferInstanceAs (Decidable (value < 0x8000000000000000))
  | .real _ _ => isTrue trivial

end Number

namespace Json

/-- Whether the names of every object are distinct. -/
abbrev HasDistinctNames : Json → Prop := Throughout List.Nodup fun _ => True

/-- Whether every integer can be stored. -/
abbrev FitsInt64 : Json → Prop := Throughout (fun _ => True) Number.FitsInt64

/-- Whether every name is read back from what is stored for it. -/
abbrev ReadsBack : Json → Prop :=
  Throughout (fun names => ∀ name ∈ names, Mongo.Key.ReadsBack name) fun _ => True

end Json

namespace Mongo

namespace Key

theorem mapNamesItems_eq_map (f : String → String) (items : List Bson) :
    mapNamesItems f items = items.map (mapNames f) := by
  induction items with
  | nil => rfl
  | cons item rest ih => rw [mapNamesItems, ih, List.map_cons]

theorem mapNamesMembers_eq_map (f : String → String) (members : List (String × Bson)) :
    mapNamesMembers f members = members.map fun entry => (f entry.1, mapNames f entry.2) := by
  induction members with
  | nil => rfl
  | cons entry rest ih => rw [mapNamesMembers, ih, List.map_cons]

private theorem names_mapNamesMembers (f : String → String) (members : List (String × Bson)) :
    Entries.names (mapNamesMembers f members) = (Entries.names members).map f := by
  rw [mapNamesMembers_eq_map, Entries.names, Entries.names, List.map_map, List.map_map]
  rfl

private theorem length_mapNamesMembers (f : String → String) (members : List (String × Bson)) :
    (mapNamesMembers f members).length = members.length := by
  rw [mapNamesMembers_eq_map, List.length_map]

end Key

namespace Stored

theorem toJsonItems_eq_map (items : List Bson) : toJsonItems items = items.map toJson := by
  induction items with
  | nil => rfl
  | cons item rest ih => rw [toJsonItems, ih, List.map_cons]

theorem toJsonMembers_eq_map (members : List (String × Bson)) :
    toJsonMembers members = members.map fun entry => (entry.1, toJson entry.2) := by
  induction members with
  | nil => rfl
  | cons entry rest ih => rw [toJsonMembers, ih, List.map_cons]

/-- Elements are stored one by one. -/
theorem forall₂_of_ofJsonItems {items : List Json} {stored : List Bson}
    (hstored : ofJsonItems items = .ok stored) :
    List.Forall₂ (fun item value => ofJson item = .ok value) items stored := by
  induction items generalizing stored with
  | nil =>
    cases hstored
    exact .nil
  | cons item rest ih =>
    obtain ⟨value, hvalue, hrest⟩ := bind_eq_ok_iff.mp hstored
    obtain ⟨others, hothers, hresult⟩ := bind_eq_ok_iff.mp hrest
    cases hresult
    exact .cons hvalue (ih hothers)

/-- Members are stored one by one, each under its name. -/
theorem forall₂_of_ofJsonMembers {members : List (String × Json)}
    {stored : List (String × Bson)} (hstored : ofJsonMembers members = .ok stored) :
    List.Forall₂ (fun member entry => member.1 = entry.1 ∧ ofJson member.2 = .ok entry.2)
      members stored := by
  induction members generalizing stored with
  | nil =>
    cases hstored
    exact .nil
  | cons member rest ih =>
    obtain ⟨value, hvalue, hrest⟩ := bind_eq_ok_iff.mp hstored
    obtain ⟨others, hothers, hresult⟩ := bind_eq_ok_iff.mp hrest
    cases hresult
    exact .cons ⟨rfl, hvalue⟩ (ih hothers)

/-- Storing the values of members leaves their names. -/
theorem names_of_ofJsonMembers {members : List (String × Json)} {stored : List (String × Bson)}
    (hstored : ofJsonMembers members = .ok stored) :
    Entries.names stored = Entries.names members := by
  have hmembers := forall₂_of_ofJsonMembers hstored
  clear hstored
  induction hmembers with
  | nil => rfl
  | cons hentry _ ih => rw [Entries.names_cons, Entries.names_cons, ← hentry.1, ih]

/-- What comes back of a value. -/
def roundTrip (value : Bson) : Json := toJson (Key.restoreValue (Key.escapeValue value))

/-- What comes back of members. -/
def roundTripMembers (members : List (String × Bson)) : List (String × Json) :=
  toJsonMembers (Entries.ofList (Key.mapNamesMembers Key.restore
    (Entries.ofList (Key.mapNamesMembers Key.escape members))))

/-- What comes back of members whose names do not fall together. -/
def roundTripEach (members : List (String × Bson)) : List (String × Json) :=
  members.map fun entry => (Key.restore (Key.escape entry.1), roundTrip entry.2)

private theorem roundTripEach_eq (members : List (String × Bson)) :
    toJsonMembers (Key.mapNamesMembers Key.restore (Key.mapNamesMembers Key.escape members))
      = roundTripEach members := by
  rw [toJsonMembers_eq_map, Key.mapNamesMembers_eq_map, Key.mapNamesMembers_eq_map, List.map_map,
    List.map_map]
  rfl

private theorem names_roundTripEach (members : List (String × Bson)) :
    Entries.names (roundTripEach members)
      = ((Entries.names members).map Key.escape).map Key.restore := by
  simp only [roundTripEach, Entries.names, List.map_map]
  rfl

/-- Members with distinct names come back when each of them does. Names that fall together lose a
    member, and no lost member comes back. -/
theorem roundTripMembers_eq_iff {stored : List (String × Bson)} {members : List (String × Json)}
    (hnames : Entries.names stored = Entries.names members)
    (hdistinct : (Entries.names members).Nodup) :
    roundTripMembers stored = members ↔ roundTripEach stored = members := by
  constructor
  · intro hback
    have hstored : stored.length = members.length := by
      rw [← Entries.length_names, hnames, Entries.length_names]
    have hcount := congrArg List.length hback
    rw [roundTripMembers, toJsonMembers_eq_map, List.length_map] at hcount
    have hescaped := Key.length_mapNamesMembers Key.escape stored
    have hescaped_le := Entries.length_ofList_le (Key.mapNamesMembers Key.escape stored)
    have hrestored := Key.length_mapNamesMembers Key.restore
      (Entries.ofList (Key.mapNamesMembers Key.escape stored))
    have hrestored_le := Entries.length_ofList_le (Key.mapNamesMembers Key.restore
      (Entries.ofList (Key.mapNamesMembers Key.escape stored)))
    have hkept : Entries.ofList (Key.mapNamesMembers Key.escape stored)
        = Key.mapNamesMembers Key.escape stored := Entries.ofList_eq_self_of_length (by omega)
    rw [roundTripMembers, Entries.ofList_eq_self_of_length (by omega), hkept,
      roundTripEach_eq] at hback
    exact hback
  · intro heach
    have hrestored : (((Entries.names stored).map Key.escape).map Key.restore).Nodup := by
      rw [← names_roundTripEach, heach]
      exact hdistinct
    have hescaped : ((Entries.names stored).map Key.escape).Nodup := hrestored.of_map
    rw [← Key.names_mapNamesMembers] at hescaped
    rw [← Key.names_mapNamesMembers, ← Key.names_mapNamesMembers] at hrestored
    rw [roundTripMembers, Entries.ofList_eq_self hescaped, Entries.ofList_eq_self hrestored,
      roundTripEach_eq]
    exact heach

theorem roundTrip_arr (items : List Bson) :
    roundTrip (.arr items) = .arr (items.map roundTrip) := by
  have hback : roundTrip (.arr items)
      = .arr (toJsonItems (Key.mapNamesItems Key.restore (Key.mapNamesItems Key.escape items))) :=
        rfl
  rw [hback, toJsonItems_eq_map, Key.mapNamesItems_eq_map, Key.mapNamesItems_eq_map, List.map_map,
    List.map_map]
  rfl

theorem roundTrip_doc (members : List (String × Bson)) :
    roundTrip (.doc members) = .obj (roundTripMembers members) := rfl

/-- A number that can be stored comes back as it was, as an integer or not. -/
theorem roundTrip_num {n : Number} {stored : Bson} (hstored : ofJson (.num n) = .ok stored) :
    roundTrip stored = .num n := by
  cases n with
  | int value fits =>
    rw [ofJson] at hstored
    split at hstored
    · next hvalue =>
      cases hstored
      have hread : (Int64.ofInt value).toInt = value := Int64.toInt_ofInt_of_le fits.1 hvalue
      have hback : roundTrip (.int64 (Int64.ofInt value)) =
          .num (numberOfInt64 (Int64.ofInt value)) := rfl
      rw [hback, numberOfInt64]
      simp only [hread]
    · cases hstored
  | real value finite =>
    cases hstored
    have hread : Number.ofDouble? value = some (.real value finite) := dif_pos finite
    have hback : roundTrip (.double value) = toJson (.double value) := rfl
    rw [hback, toJson, hread]

mutual

/-- A value comes back when every name in it does. -/
theorem roundTrip_eq_iff : (value : Json) → {stored : Bson} → value.HasDistinctNames →
    ofJson value = .ok stored → (roundTrip stored = value ↔ value.ReadsBack)
  | .null, stored, _, hstored => by
    cases hstored
    exact iff_of_true rfl trivial
  | .bool _, stored, _, hstored => by
    cases hstored
    exact iff_of_true rfl trivial
  | .num n, stored, _, hstored => iff_of_true (roundTrip_num hstored) trivial
  | .str _, stored, _, hstored => by
    cases hstored
    exact iff_of_true rfl trivial
  | .arr items, stored, hdistinct, hstored => by
    obtain ⟨stored, hitems, rfl⟩ := map_eq_ok_iff.mp hstored
    rw [roundTrip_arr, Json.arr.injEq]
    exact roundTripItems_eq_iff items hdistinct hitems
  | .obj members, stored, hdistinct, hstored => by
    obtain ⟨stored, hmembers, rfl⟩ := map_eq_ok_iff.mp hstored
    rw [roundTrip_doc, Json.obj.injEq,
      roundTripMembers_eq_iff (names_of_ofJsonMembers hmembers) hdistinct.1]
    exact roundTripEach_eq_iff members hdistinct.2 hmembers

theorem roundTripItems_eq_iff : (items : List Json) → {stored : List Bson} →
    Json.ThroughoutItems List.Nodup (fun _ => True) items → ofJsonItems items = .ok stored →
    (stored.map roundTrip = items ↔
      Json.ThroughoutItems (fun names => ∀ name ∈ names, Key.ReadsBack name)
        (fun _ => True) items)
  | [], stored, _, hstored => by
    cases hstored
    exact iff_of_true rfl trivial
  | item :: rest, stored, hdistinct, hstored => by
    obtain ⟨first, hfirst, hrest⟩ := bind_eq_ok_iff.mp hstored
    obtain ⟨others, hothers, hresult⟩ := bind_eq_ok_iff.mp hrest
    cases hresult
    rw [List.map_cons, List.cons_eq_cons, roundTrip_eq_iff item hdistinct.1 hfirst,
      roundTripItems_eq_iff rest hdistinct.2 hothers]
    rfl

private theorem roundTripEach_eq_iff :
    (members : List (String × Json)) → {stored : List (String × Bson)} →
    Json.ThroughoutMembers List.Nodup (fun _ => True) members →
    ofJsonMembers members = .ok stored →
    (roundTripEach stored = members ↔ (∀ name ∈ Entries.names members, Key.ReadsBack name) ∧
      Json.ThroughoutMembers (fun names => ∀ name ∈ names, Key.ReadsBack name)
      (fun _ => True) members)
  | [], stored, _, hstored => by
    cases hstored
    exact iff_of_true rfl ⟨fun _ hname => absurd hname List.not_mem_nil, trivial⟩
  | (name, value) :: rest, stored, hdistinct, hstored => by
    obtain ⟨first, hfirst, hrest⟩ := bind_eq_ok_iff.mp hstored
    obtain ⟨others, hothers, hresult⟩ := bind_eq_ok_iff.mp hrest
    cases hresult
    have hmember : (Key.restore (Key.escape name), roundTrip first) = (name, value) ↔
        Key.ReadsBack name ∧ value.ReadsBack := by
      rw [Prod.mk.injEq, Key.restore_escape_eq_self_iff, roundTrip_eq_iff value hdistinct.1 hfirst]
    have hothers := roundTripEach_eq_iff rest hdistinct.2 hothers
    rw [roundTripEach, List.map_cons, List.cons_eq_cons, hmember, ← roundTripEach, hothers,
      Entries.names_cons, List.forall_mem_cons, Json.ThroughoutMembers]
    exact and_and_and_comm

end

mutual

/-- A value can be stored when every integer in it can. -/
theorem exists_ofJson_iff :
    (value : Json) → ((∃ stored, ofJson value = .ok stored) ↔ value.FitsInt64)
  | .null | .bool _ | .str _ | .num (.real _ _) => iff_of_true ⟨_, rfl⟩ trivial
  | .num (.int value fits) => by
    rw [ofJson]
    by_cases hvalue : value < 0x8000000000000000
    · rw [if_pos hvalue]
      exact iff_of_true ⟨_, rfl⟩ hvalue
    · rw [if_neg hvalue]
      exact iff_of_false (fun ⟨_, hstored⟩ => nomatch hstored) hvalue
  | .arr items => exists_map_eq_ok_iff.trans (exists_ofJsonItems_iff items)
  | .obj members => by
    change _ ↔ True ∧ Json.ThroughoutMembers _ _ members
    rw [true_and, ofJson, exists_map_eq_ok_iff, exists_ofJsonMembers_iff members]

theorem exists_ofJsonItems_iff : (items : List Json) →
    ((∃ stored, ofJsonItems items = .ok stored) ↔
      Json.ThroughoutItems (fun _ => True) Number.FitsInt64 items)
  | [] => iff_of_true ⟨_, rfl⟩ trivial
  | item :: rest => by
    change _ ↔ item.FitsInt64 ∧ _
    rw [← exists_ofJson_iff item, ← exists_ofJsonItems_iff rest]
    exact exists_both_eq_ok_iff

private theorem exists_ofJsonMembers_iff : (members : List (String × Json)) →
    ((∃ stored, ofJsonMembers members = .ok stored) ↔
      Json.ThroughoutMembers (fun _ => True) Number.FitsInt64 members)
  | [] => iff_of_true ⟨_, rfl⟩ trivial
  | (name, value) :: rest => by
    change _ ↔ value.FitsInt64 ∧ _
    rw [← exists_ofJson_iff value, ← exists_ofJsonMembers_iff rest]
    exact exists_both_eq_ok_iff

end

/-- A document can be stored when every integer in its data can. -/
theorem exists_ofDocument_iff {d : Document} :
    (∃ stored, ofDocument d = .ok stored) ↔ (Json.obj d.data).FitsInt64 := by
  change _ ↔ True ∧ Json.ThroughoutMembers _ _ d.data
  rw [true_and, ← exists_ofJsonMembers_iff]
  constructor
  · rintro ⟨stored, hstored⟩
    obtain ⟨data, hdata, -⟩ := bind_eq_ok_iff.mp hstored
    exact ⟨data, hdata⟩
  · rintro ⟨data, hdata⟩
    exact ⟨_, bind_eq_ok_iff.mpr ⟨data, hdata, rfl⟩⟩

/-- The entries that are stored beside the data. -/
def header (d : Document) : List (String × Bson) :=
  [(Key.id, .str d.id), (Key.created, .date d.created.epochMillis),
   (Key.updated, .date d.updated.epochMillis)]

theorem names_header (d : Document) : Entries.names (header d) = Key.reserved := rfl

theorem get?_created_header (d : Document) :
    Entries.get? Key.created (header d) = some (.date d.created.epochMillis) := by
  simp [Entries.get?, header, Key.id, Key.created]

theorem get?_updated_header (d : Document) :
    Entries.get? Key.updated (header d) = some (.date d.updated.epochMillis) := by
  simp [Entries.get?, header, Key.id, Key.created, Key.updated]

/-- Under a name that is stored for itself alone stands what is written for the data of that name,
    or else the entry of the header. -/
theorem get?_of_ofDocument {d : Document} {stored data : List (String × Bson)}
    (hdistinct : (Entries.names d.data).Nodup) (hdata : ofJsonMembers d.data = .ok data)
    (hstored : ofDocument d = .ok stored) {name : String}
    (hname : ∀ other ∈ Entries.names d.data, Key.escape other = name ↔ other = name) :
    Entries.get? name stored =
      ((Entries.get? name data).map Key.escapeValue).or (Entries.get? name (header d)) := by
  have hwritten : ofDocument d =
      .ok ((Entries.ofList (Key.mapNamesMembers Key.escape data)).foldl
        (fun stored entry => Entries.set entry.1 entry.2 stored) (header d)) := by
    rw [ofDocument, hdata]
    rfl
  have hnames := names_of_ofJsonMembers hdata
  rw [← hnames] at hdistinct hname
  have hrenamed : ∀ other ∈ Entries.names data.reverse, Key.escape other = name ↔
      other = name := by
    intro other hother
    rw [Entries.names, List.map_reverse, List.mem_reverse] at hother
    exact hname other hother
  rw [← Except.ok.inj (hwritten.symm.trans hstored), Entries.get?_foldl_set,
    Entries.get?_reverse (Entries.nodup_names_ofList _), Entries.get?_ofList,
    Key.mapNamesMembers_eq_map,
    ← List.map_reverse, Entries.get?_map_names _ hrenamed, Entries.get?_reverse hdistinct]
  rfl

/-- Data without stored names of the id or of an instant is stored behind them. -/
theorem ofDocument_eq {d : Document} {data : List (String × Bson)}
    (hdata : ofJsonMembers d.data = .ok data)
    (hunreserved : ∀ name ∈ Entries.names d.data, name ∉ Key.reserved) :
    ofDocument d = .ok (header d ++ Entries.ofList (Key.mapNamesMembers Key.escape data)) ∧
      ∀ name ∈ Entries.names (Entries.ofList (Key.mapNamesMembers Key.escape data)),
        name ∉ Key.reserved := by
  have hescaped : ∀ name ∈ Entries.names (Entries.ofList (Key.mapNamesMembers Key.escape data)),
      name ∉ Key.reserved := by
    intro name hname
    have hname := Entries.mem_names_of_mem_ofList hname
    rw [Key.names_mapNamesMembers, names_of_ofJsonMembers hdata] at hname
    obtain ⟨original, horiginal, rfl⟩ := List.mem_map.mp hname
    intro hreserved
    exact hunreserved original horiginal
      (Key.escape_eq_self_of_mem_reserved hreserved ▸ hreserved)
  refine ⟨?_, hescaped⟩
  have hnodup : (Entries.names (header d) ++
      Entries.names (Entries.ofList (Key.mapNamesMembers Key.escape data))).Nodup := by
    refine List.nodup_append.mpr
      ⟨by rw [names_header]; decide, Entries.nodup_names_ofList _, ?_⟩
    rintro name hheader _ hname rfl
    exact hescaped name hname hheader
  have hwritten := Entries.foldl_set_eq_append hnodup
  rw [ofDocument, hdata]
  exact congrArg Except.ok hwritten

/-- What a stored form with a header is read as. -/
theorem toDocument_header (collection : String) (d : Document) {entries : List (String × Bson)}
    (hunreserved : ∀ name ∈ Entries.names entries, name ∉ Key.reserved) :
    toDocument collection (header d ++ entries) = .ok {
      id := d.id
      collection
      data := toJsonMembers (Entries.ofList (Key.mapNamesMembers Key.restore entries))
      created := Instant.ofEpochMillisClamped d.created.epochMillis
      updated := Instant.ofEpochMillisClamped d.updated.epochMillis } := by
  have hid : Entries.get? Key.id (header d ++ entries) = some (.str d.id) := rfl
  have hcreated : Entries.get? Key.created (header d ++ entries) =
      some (.date d.created.epochMillis) := by
    rw [Entries.get?_append, get?_created_header, Option.some_or]
  have hupdated : Entries.get? Key.updated (header d ++ entries) =
      some (.date d.updated.epochMillis) := by
    rw [Entries.get?_append, get?_updated_header, Option.some_or]
  have hheader : Entries.erase Key.updated
      (Entries.erase Key.created (Entries.erase Key.id (header d)))
      = [] := by
    simp [Entries.erase, header, Key.id, Key.created, Key.updated]
  have hentries : ∀ name ∈ Key.reserved, Entries.erase name entries = entries := by
    intro name hname
    exact Entries.erase_of_not_mem fun hmem => hunreserved name hmem hname
  unfold toDocument
  simp only [hid, instantOf, hcreated, hupdated, Entries.erase_append,
    hheader, idOf, List.nil_append,
    hentries Key.id (by decide), hentries Key.created (by decide), hentries Key.updated (by decide)]

end Stored

end Mongo

namespace Instant

/-- Whether an instant is a whole number of milliseconds in the years that dates may name, and in no
    leap second. -/
structure IsDate (t : Instant) : Prop where
  milli_lt : t.milli < 1000
  start_le : yearStart Date.firstYear ≤ t.epochMillis
  lt_end : t.epochMillis < yearStart (Date.lastYear + 1)

/-- An instant that a date can hold comes back from its milliseconds. -/
theorem ofEpochMillisClamped_epochMillis {t : Instant} (ht : t.IsDate) :
    ofEpochMillisClamped t.epochMillis = t := by
  have hmilli := ht.milli_lt
  have hstart := ht.start_le
  have hend := ht.lt_end
  have hclamped : max (yearStart Date.firstYear)
      (min t.epochMillis (yearStart (Date.lastYear + 1) - 1)) = t.epochMillis := by
    omega
  rw [ofEpochMillisClamped, hclamped]
  obtain ⟨second, milli, hlt⟩ := t
  simp only [ofEpochMillis, epochMillis, mk.injEq] at hmilli ⊢
  omega

end Instant

namespace Mongo.Stored

/-- Documents whose data the stored form can hold: names are distinct at every depth and not those
    of the header, integers have 64 bits with their sign, and the instants are dates. -/
structure IsStorable (d : Document) : Prop where
  distinct : (Json.obj d.data).HasDistinctNames
  fits : (Json.obj d.data).FitsInt64
  unreserved : ∀ name ∈ Entries.names d.data, name ∉ Key.reserved
  created : d.created.IsDate
  updated : d.updated.IsDate

/-- A document comes back from its stored form exactly when all names in its data are read back. -/
theorem toDocument_ofDocument_eq_iff (collection : String) (d : Document) (hd : IsStorable d) :
    ∃ stored, ofDocument d = .ok stored ∧
      (toDocument collection stored = .ok { d with collection } ↔
        (Json.obj d.data).ReadsBack) := by
  obtain ⟨data, hdata⟩ := (exists_ofJsonMembers_iff d.data).mpr hd.fits.2
  obtain ⟨hstored, hunreserved⟩ := ofDocument_eq hdata hd.unreserved
  refine ⟨_, hstored, ?_⟩
  have hback : roundTripMembers data = d.data ↔ (Json.obj d.data).ReadsBack := by
    rw [roundTripMembers_eq_iff (names_of_ofJsonMembers hdata) hd.distinct.1]
    exact roundTripEach_eq_iff d.data hd.distinct.2 hdata
  rw [toDocument_header collection d hunreserved, ← hback,
    Instant.ofEpochMillisClamped_epochMillis hd.created,
    Instant.ofEpochMillisClamped_epochMillis hd.updated, roundTripMembers]
  simp

/-- A document with names that have to be escaped, at two depths. -/
def escaped : Document where
  id := "p1"
  collection := "posts"
  data := [("title", .str "a.b"), ("meta", .obj [("a.b", .num (.int 1 (by decide))),
    ("$x", .arr [.bool true, .null])]), ("views", .num (.int 150 (by decide)))]
  created := ⟨1709287200, 0, Instant.epoch.milli_lt⟩
  updated := ⟨1709287200, 250, by decide⟩

/-- Names with a dot and with a dollar sign come back, at both depths. -/
theorem toDocument_ofDocument_escaped :
    IsStorable escaped ∧
      ∃ stored, ofDocument escaped = .ok stored ∧ toDocument "posts" stored = .ok escaped := by
  have hstorable : IsStorable escaped := by
    exact ⟨by decide, by decide, by decide, ⟨by decide, by decide, by decide⟩,
      ⟨by decide, by decide, by decide⟩⟩
  obtain ⟨stored, hstored, hback⟩ := toDocument_ofDocument_eq_iff "posts" escaped hstorable
  exact ⟨hstorable, stored, hstored, hback.mpr (by decide)⟩

/-- A document with one name, which has the word of a marker between two characters that are
    escaped. -/
def fused : Document where
  id := "p1"
  collection := "c"
  data := [("a.null.b", .num (.int 1 (by decide)))]
  created := ⟨1704067200, 0, Instant.epoch.milli_lt⟩
  updated := ⟨1704067200, 0, Instant.epoch.milli_lt⟩

/-- No marker occurs in the name, yet the document does not come back. -/
theorem toDocument_ofDocument_fused :
    IsStorable fused ∧ (∀ name ∈ Entries.names fused.data, ∀ m ∈ Key.markers,
        ¬ m.2.toList <:+: name.toList) ∧
      ∃ stored, ofDocument fused = .ok stored ∧ toDocument "c" stored ≠ .ok fused := by
  have hnone : ∀ name ∈ Entries.names fused.data, ∀ m ∈ Key.markers,
      Text.occursIn m.2.toList name.toList = false := by decide
  refine ⟨⟨by decide, by decide, by decide, ⟨by decide, by decide, by decide⟩,
    ⟨by decide, by decide, by decide⟩⟩, ?_, _, rfl, by decide⟩
  simpa only [← Text.occursIn_iff, Bool.not_eq_true] using hnone

end Mongo.Stored

end DocQuery
