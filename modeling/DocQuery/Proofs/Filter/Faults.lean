import DocQuery.Proofs.Filter.Key

namespace DocQuery

namespace FieldPath

/-- What is wrong with the text of a path: its first segment is empty, or another one but the
    last. -/
inductive Fault (raw : String) : RequestError → Prop where
  | first {rest : List String} (segments : Text.split '.' raw = "" :: rest) :
      Fault raw (.emptyPath raw)
  | inner {first : String} {rest : List String} (segments : Text.split '.' raw = first :: rest)
      (nonempty : first ≠ "") (empty : "" ∈ rest.dropLast) : Fault raw (.emptySegment raw)

private theorem empty_mem_dropLast_cons {first : String} (hfirst : first ≠ "")
    (rest : List String) :
    "" ∈ (first :: rest).dropLast ↔ "" ∈ rest.dropLast := by
  cases rest with
  | nil => exact iff_of_false List.not_mem_nil List.not_mem_nil
  | cons second others =>
    rw [List.dropLast_cons_cons, List.mem_cons, or_iff_right (Ne.symm hfirst)]

/-- A text is refused as a path for its fault, and for nothing else. -/
theorem parse_eq_error_iff {raw : String} {e : RequestError} :
    parse raw = .error e ↔ Fault raw e := by
  obtain ⟨first, rest, hsplit⟩ := List.exists_cons_of_ne_nil (Text.split_ne_nil '.' raw)
  simp only [parse, hsplit]
  constructor
  · intro herror
    split at herror
    · next hfirst =>
      cases herror
      exact .first (hfirst ▸ hsplit)
    · next hfirst =>
      split at herror
      · next hinner =>
        cases herror
        exact .inner hsplit hfirst ((empty_mem_dropLast_cons hfirst rest).mp hinner)
      · cases herror
  · intro hfault
    cases hfault with
    | first hsegments =>
      obtain ⟨rfl, -⟩ := List.cons.inj (hsplit.symm.trans hsegments)
      rw [if_pos rfl]
    | inner hsegments hfirst hempty =>
      obtain ⟨rfl, rfl⟩ := List.cons.inj (hsplit.symm.trans hsegments)
      rw [if_neg hfirst, if_pos ((empty_mem_dropLast_cons hfirst rest).mpr hempty)]

end FieldPath

namespace Clause

/-- What is wrong with the marker of a key: it is never closed, or names no group. -/
inductive MarkerFault (key : String) : RequestError → Prop where
  | unterminated {marked : String} (start : key = "[" ++ marked) (opened : ']' ∉ marked.toList) :
      MarkerFault key (.unterminatedMarker key)
  | malformed {marker rest : String} (start : key = "[" ++ marker ++ "]" ++ rest)
      (closed : ']' ∉ marker.toList) (notBare : marker ≠ "or")
      (notNamed : ∀ name, marker = "or:" ++ name → isGroupName name = false) :
      MarkerFault key (.malformedMarker marker key)

/-- What is wrong with a key and a text. -/
inductive Fault (key value : String) : RequestError → Prop where
  | marker {cause : RequestError} (fault : MarkerFault key cause) : Fault key value cause
  | path {group : Option String} {rest field : String} {op : Operator} {cause : RequestError}
      (begins : Begins key group rest) (ends : Ends rest field op)
      (fault : FieldPath.Fault field cause) :
      Fault key value cause
  | notBoolean {group : Option String} {rest : String} {path : FieldPath}
      (begins : Begins key group rest) (writable : path.IsWritable)
      (ends : Ends rest path.text .isNull)
      (notTrue : Text.asciiLowercase value ≠ "true")
      (notFalse : Text.asciiLowercase value ≠ "false") :
      Fault key value (.notBoolean key (.text value))

/-- Whether a key and a text spell a clause. -/
def Spells (key value : String) (c : Clause) : Prop :=
  c.path.IsWritable ∧ Takes c.op value c.value ∧ ∃ rest, Begins key c.group rest ∧
    Ends rest c.path.text c.op

/-- A key and a text are read as the clause that they spell. -/
theorem parse_text_eq_ok_iff_spells {key value : String} {c : Clause} :
    parse key (.text value) = .ok c ↔ Spells key value c := parse_text_eq_ok_iff

private theorem groupOfMarker?_eq_none_iff {marker : String} : groupOfMarker? marker = none ↔
    marker ≠ "or" ∧ ∀ name, marker = "or:" ++ name → isGroupName name = false := by
  simp only [Option.eq_none_iff_forall_ne_some, ne_eq, groupOfMarker?_eq_some_iff, not_or, not_and,
    Bool.not_eq_true]
  constructor
  · intro hnone
    exact ⟨fun hbare => (hnone anonymousGroup).1 hbare rfl, fun name => (hnone name).2⟩
  · rintro ⟨hbare, hnamed⟩ name
    exact ⟨fun hmarker => absurd hmarker hbare, hnamed name⟩

/-- Splitting a key fails for the fault of its marker alone. -/
theorem splitMarker_eq_error_iff {key : String} {e : RequestError} :
    splitMarker key = .error e ↔ MarkerFault key e := by
  unfold splitMarker
  constructor
  · intro herror
    split at herror
    · cases herror
    · next marked hmarked =>
      have hkey := Text.dropStart?_eq_some_iff.mp hmarked
      split at herror
      · next hcut =>
        cases herror
        exact .unterminated hkey (Text.cutAt?_eq_none_iff.mp hcut)
      · next marker rest hcut =>
        split at herror
        · cases herror
        · next hgroup =>
          cases herror
          obtain ⟨hclosed, rfl⟩ := Text.cutAt?_eq_some_iff.mp hcut
          obtain ⟨hbare, hnamed⟩ := groupOfMarker?_eq_none_iff.mp hgroup
          have hstart : key = "[" ++ marker ++ "]" ++ rest := by
            rw [hkey, ← String.append_assoc, ← String.append_assoc]
            rfl
          exact .malformed hstart hclosed hbare hnamed
  · intro hfault
    cases hfault with
    | unterminated hkey hopened =>
      simp only [Text.dropStart?_eq_some_iff.mpr hkey, Text.cutAt?_eq_none_iff.mpr hopened]
    | @malformed marker rest hkey hclosed hbare hnamed =>
      have hstart : Text.dropStart? "[" key = some (marker ++ String.singleton ']' ++ rest) := by
        rw [Text.dropStart?_eq_some_iff, hkey, ← String.append_assoc, ← String.append_assoc]
        rfl
      simp only [hstart, Text.cutAt?_eq_some_iff.mpr ⟨hclosed, rfl⟩,
        groupOfMarker?_eq_none_iff.mpr ⟨hbare, hnamed⟩]

/-- Of all operators `isnull` alone refuses a text. -/
theorem parseValue_text_eq_error_iff {key value : String} {op : Operator} {e : RequestError} :
    parseValue key op (.text value) = .error e ↔ op = .isNull ∧
      e = .notBoolean key (.text value) ∧
      Text.asciiLowercase value ≠ "true" ∧ Text.asciiLowercase value ≠ "false" := by
  constructor
  · intro herror
    have hnone : ¬ ∃ literal, Takes op value literal := by
      rintro ⟨literal, htakes⟩
      rw [parseValue_text_eq_ok_iff.mpr htakes] at herror
      cases herror
    rw [exists_takes_iff] at hnone
    obtain ⟨rfl, hword⟩ := Classical.not_imp.mp hnone
    refine ⟨rfl, ?_, not_or.mp hword⟩
    unfold parseValue at herror
    rw [if_pos rfl] at herror
    split at herror
    · cases herror
    · cases herror
      rfl
  · rintro ⟨rfl, rfl, htrue, hfalse⟩
    have hnone : (Literal.text value).asBool = none := by
      simp only [Literal.asBool, if_neg htrue, if_neg hfalse]
    simp only [parseValue, if_true, RawValue.literal, hnone]

/-- A key and a text that have no fault are read, and others are refused for their fault. -/
theorem parse_text_eq_error_iff {key value : String} {e : RequestError} :
    parse key (.text value) = .error e ↔ Fault key value e := by
  unfold parse
  simp only [bind_eq_error_iff, pure, Except.pure, reduceCtorEq, and_false, exists_false, or_false,
    splitMarker_eq_error_iff, FieldPath.parse_eq_error_iff, parseValue_text_eq_error_iff]
  constructor
  · rintro (hmarker | ⟨⟨group, rest⟩, hmarker, hpath |
      ⟨path, hpath, hop, rfl, htrue, hfalse⟩⟩)
    · exact .marker hmarker
    · exact .path (splitMarker_eq_ok_iff.mp hmarker) (splitOperator_eq_iff.mp rfl) hpath
    · obtain ⟨hwritable, htext⟩ := FieldPath.parse_eq_ok_iff.mp hpath
      refine .notBoolean (splitMarker_eq_ok_iff.mp hmarker) hwritable ?_ htrue hfalse
      exact splitOperator_eq_iff.mp (Prod.ext htext.symm hop)
  · intro hfault
    cases hfault with
    | marker hmarker => exact .inl hmarker
    | path hbegins hends hpath =>
      refine .inr ⟨_, splitMarker_eq_ok_iff.mpr hbegins, .inl ?_⟩
      rwa [splitOperator_eq_iff.mpr hends]
    | notBoolean hbegins hwritable hends htrue hfalse =>
      refine .inr ⟨_, splitMarker_eq_ok_iff.mpr hbegins, .inr ?_⟩
      rw [splitOperator_eq_iff.mpr hends]
      exact ⟨_, FieldPath.parse_eq_ok_iff.mpr ⟨hwritable, rfl⟩, rfl, rfl, htrue, hfalse⟩

end Clause

end DocQuery
