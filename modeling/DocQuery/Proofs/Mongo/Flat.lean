import DocQuery.Proofs.Mongo.Comparison
import DocQuery.Proofs.Mongo.Stored

namespace DocQuery.Mongo

open Condition (seen)
open Stored (ofJson)

/-- What is stored for a scalar is a scalar. -/
theorem isScalar_of_ofJson {value : Json} {stored : Bson} (hvalue : value.IsScalar)
    (hstored : ofJson value = .ok stored) : stored.IsScalar := by
  cases value with
  | null | bool _ | str _ =>
    cases hstored
    trivial
  | num n =>
    have hw := worth?_of_ofJson hvalue hstored
    cases stored with
    | arr _ | doc _ => cases hw
    | _ => trivial
  | arr _ | obj _ => cases hvalue

private theorem seen_of_isScalar {stored : Bson} (hstored : stored.IsScalar) :
    seen (some stored) = [stored] := by
  cases stored with
  | arr _ => cases hstored
  | _ => rfl

/-- There are no names in a scalar. -/
theorem mapNames_of_isScalar {stored : Bson} (hstored : stored.IsScalar) (f : String → String) :
    Key.mapNames f stored = stored := by
  cases stored with
  | arr _ | doc _ => cases hstored
  | _ => rfl

/-- Null alone is stored as null. -/
theorem isNull_of_ofJson {value : Json} {stored : Bson} (hnull : value ≠ .null)
    (hvalue : value.IsScalar) (hstored : ofJson value = .ok stored) : stored.isNull = false := by
  cases value with
  | null => exact absurd rfl hnull
  | bool _ | str _ =>
    cases hstored
    rfl
  | num n =>
    have hw := worth?_of_ofJson hvalue hstored
    cases stored with
    | null => cases hw
    | _ => rfl
  | arr _ | obj _ => cases hvalue

/-- What is stored for a field: nothing if it is missing, or else its value. -/
inductive Stands : Option Json → Option Bson → Prop where
  | missing : Stands none none
  | value {value : Json} {stored : Bson} (scalar : value.IsScalar)
      (written : ofJson value = .ok stored) :
      Stands (some value) (some stored)

/-- A field without a value shows null, and any other shows what is stored for its value. -/
theorem Stands.seen_cases {field : Option Json} {stored : Option Bson}
    (hstands : Stands field stored) :
    (∀ (op : Operator) (literal : Literal), op.holds field literal = op.holdsOfNull literal) ∧
        seen stored = [.null] ∨
      ∃ value written, value.IsScalar ∧ value ≠ .null ∧ ofJson value = .ok written ∧
        (∀ (op : Operator) (literal : Literal), op.holds field literal =
          op.holdsOf value literal) ∧
        seen stored = [written] := by
  cases hstands with
  | missing => exact .inl ⟨fun _ _ => rfl, rfl⟩
  | @value value written hvalue hwritten =>
    by_cases hnull : value = .null
    · subst hnull
      cases hwritten
      exact .inl ⟨fun _ _ => rfl, rfl⟩
    · refine .inr ⟨value, written, hvalue, hnull, hwritten, fun op literal => ?_,
        seen_of_isScalar (isScalar_of_ofJson hvalue hwritten)⟩
      cases value with
      | null => exact absurd rfl hnull
      | _ => rfl

/-- Whether a name is stored as it is, and is none of the names beside the data. -/
structure Key.IsPlain (name : String) : Prop where
  free : ∀ m ∈ Key.markers, m.1 ∉ name.toList
  start : ¬ "_".toList <+: name.toList

instance (name : String) : Decidable (Key.IsPlain name) :=
  decidable_of_iff ((∀ m ∈ Key.markers, m.1 ∉ name.toList) ∧ ¬ "_".toList <+: name.toList)
    ⟨fun h => ⟨h.1, h.2⟩, fun h => ⟨h.free, h.start⟩⟩

/-- A plain name is stored as it is. -/
theorem Key.IsPlain.escape_eq {name : String} (hname : Key.IsPlain name) : Key.escape name = name :=
  Key.escape_eq_self hname.free

private theorem Key.IsPlain.not_mem_reserved {name : String} (hname : Key.IsPlain name) :
    name ∉ Key.reserved := by
  have hstart : ∀ name ∈ Key.reserved, "_".toList <+: name.toList := by decide
  exact fun hmem => hname.start (hstart name hmem)

/-- Members are found under their names, each as what is stored for it. -/
theorem rel_get?_of_ofJsonMembers {members : List (String × Json)} {data : List (String × Bson)}
    (hdata : Stored.ofJsonMembers members = .ok data) (name : String) :
    Option.Rel (fun value written => ofJson value = .ok written) (Entries.get? name members)
      (Entries.get? name data) := by
  have hmembers := Stored.forall₂_of_ofJsonMembers hdata
  clear hdata
  induction hmembers with
  | nil => exact .none
  | cons hentry _ ih =>
    rw [Entries.get?, Entries.get?, ← hentry.1]
    split
    · exact .some hentry.2
    · exact ih

/-- Data of a name that is stored as it is, and that no other name of the data is stored as, is
    stored under this name. -/
theorem rel_get?_of_ofDocument {d : Document} {stored : List (String × Bson)}
    (hdistinct : (Entries.names d.data).Nodup) (hstored : Stored.ofDocument d = .ok stored)
    {name : String} (hname : Key.IsPlain name)
    (halone : ∀ other ∈ Entries.names d.data, Key.escape other = name → other = name) :
    Option.Rel (fun value written => ∃ unescaped, ofJson value = .ok unescaped ∧
      Key.escapeValue unescaped =
        written) (Entries.get? name d.data) (Entries.get? name stored) := by
  obtain ⟨data, hdata, -⟩ := bind_eq_ok_iff.mp hstored
  have hheader : Entries.get? name (Stored.header d) = none :=
    Entries.get?_of_not_mem hname.not_mem_reserved
  have hvalue := rel_get?_of_ofJsonMembers hdata name
  rw [Stored.get?_of_ofDocument hdistinct hdata hstored fun other hother =>
    ⟨halone other hother, fun heq => heq ▸ hname.escape_eq⟩, hheader, Option.or_none]
  generalize Entries.get? name d.data = value at hvalue
  generalize Entries.get? name data = unescaped at hvalue
  cases hvalue with
  | none => exact .none
  | some hunescaped => exact .some ⟨_, hunescaped, rfl⟩

/-- Data under a plain name that no other name is stored as is found there in the stored form. -/
theorem exists_get?_of_ofDocument {d : Document} {stored : List (String × Bson)}
    (hdistinct : (Entries.names d.data).Nodup) (hstored : Stored.ofDocument d = .ok stored)
    {name : String} (hname : Key.IsPlain name)
    (halone : ∀ other ∈ Entries.names d.data, Key.escape other = name → other = name)
    {value : Json} (hvalue : Entries.get? name d.data = some value) :
    ∃ unescaped, ofJson value = .ok unescaped ∧ Entries.get? name stored =
      some (Key.escapeValue unescaped) := by
  have hrelated := rel_get?_of_ofDocument hdistinct hstored hname halone
  rw [hvalue] at hrelated
  generalize Entries.get? name stored = written at hrelated ⊢
  cases hrelated with
  | some hunescaped =>
    obtain ⟨unescaped, hunescaped, rfl⟩ := hunescaped
    exact ⟨unescaped, hunescaped, rfl⟩

/-- Of plain names none is stored as another. -/
theorem Key.eq_of_escape_eq {names : List String} (hplain : ∀ name ∈ names, Key.IsPlain name)
    {name : String} :
    ∀ other ∈ names, Key.escape other = name → other = name :=
  fun other hother heq => (hplain other hother).escape_eq.symm.trans heq

/-- Whether data are no arrays and no objects, under distinct names that are stored as they are. -/
structure IsFlat (data : List (String × Json)) : Prop where
  distinct : (Entries.names data).Nodup
  plain : ∀ name ∈ Entries.names data, Key.IsPlain name
  scalar : ∀ entry ∈ data, entry.2.IsScalar

/-- A field besides the id and the instants is one of the data, and stored under its escaped
    name. -/
theorem field?_of_not_mem {field : String}
    (hown : field ∉ [Document.idField, Document.createdField, Document.updatedField])
    (d : Document) :
    d.field? field = Entries.get? field d.data ∧ storedField field = Key.escape field := by
  obtain ⟨hid, hcreated, hupdated⟩ :
      field ≠ Document.idField ∧ field ≠ Document.createdField ∧
      field ≠ Document.updatedField := by
    simpa using hown
  rw [Document.field?, storedField, if_neg hid, if_neg hid, if_neg hcreated,
    if_neg hcreated, if_neg hupdated, if_neg hupdated]
  exact ⟨rfl, rfl⟩

/-- The fields of flat data show what is stored for them, and the id shows under its own name. -/
theorem stands_of_isFlat {d : Document} {stored : List (String × Bson)} (hd : IsFlat d.data)
    (hstored : Stored.ofDocument d = .ok stored) {field : String} (hplain : Key.IsPlain field)
    (hinstant : isInstantField field = false) :
    Stands (d.field? field) (Entries.get? (storedField field) stored) := by
  obtain ⟨hcreated, hupdated⟩ : field ≠ Document.createdField ∧
      field ≠ Document.updatedField := by
    simpa [isInstantField] using hinstant
  by_cases hid : field = Document.idField
  · unfold Document.field? storedField
    obtain ⟨data, hdata, -⟩ := bind_eq_ok_iff.mp hstored
    have hheader :=
      (Stored.ofDocument_eq hdata fun name hmem => (hd.plain name hmem).not_mem_reserved).1
    have hwritten : ofJson (.str d.id) = .ok (.str d.id) := rfl
    rw [if_pos hid, if_pos hid, Except.ok.inj (hstored.symm.trans hheader)]
    exact .value trivial hwritten
  · have hown : field ∉ [Document.idField, Document.createdField, Document.updatedField] := by
      simp [hid, hcreated, hupdated]
    obtain ⟨hdata, hname⟩ := field?_of_not_mem hown d
    have hvalue := rel_get?_of_ofDocument hd.distinct hstored hplain (Key.eq_of_escape_eq hd.plain)
    rw [hdata, hname, hplain.escape_eq]
    generalize hget : Entries.get? field d.data = value at hvalue
    generalize Entries.get? field stored = written at hvalue
    cases hvalue with
    | none => exact .missing
    | some hwritten =>
      obtain ⟨unescaped, hunescaped, rfl⟩ := hwritten
      have hscalar := hd.scalar _ (Entries.mem_of_get? hget)
      rw [Key.escapeValue, mapNames_of_isScalar (isScalar_of_ofJson hscalar hunescaped)]
      exact .value hscalar hunescaped

end DocQuery.Mongo
