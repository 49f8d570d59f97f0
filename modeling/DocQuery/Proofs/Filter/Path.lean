import DocQuery.Filter.Printer
import DocQuery.Proofs.Text.Pieces

namespace DocQuery

namespace FieldPath

theorem segments_ofSegments (first : String) (rest : List String) :
    (ofSegments first rest).segments = first :: rest :=
  List.dropLast_concat_getLast (List.cons_ne_nil first rest)

/-- Every name of a read path is a piece of the text, and they are in order. -/
theorem segments_of_parse {raw : String} {p : FieldPath} (hparse : parse raw = .ok p) :
    p.segments = Text.split '.' raw := by
  unfold parse at hparse
  split at hparse
  · cases hparse
  · next first rest hsplit =>
    split at hparse
    · cases hparse
    · split at hparse
      · cases hparse
      · cases hparse
        rw [segments_ofSegments, hsplit]

/-- Paths that are read are told by their texts. -/
theorem isWritable_of_parse {raw : String} {p : FieldPath} (hparse : parse raw = .ok p) :
    p.IsWritable := by
  have hsegments := segments_of_parse hparse
  unfold parse at hparse
  split at hparse
  · cases hparse
  · next first rest hsplit =>
    split at hparse
    · cases hparse
    · next hfirst =>
      split at hparse
      · cases hparse
      · next hinner =>
        cases hparse
        refine ⟨fun name hname => ?_, fun relation hrelation hempty => ?_, fun hdirect => ?_⟩
        · exact Text.not_mem_of_mem_split (hsegments ▸ hname)
        · exact hinner (hempty ▸ hrelation)
        · -- a path without relations has one segment, which is the first one
          have hone : [(ofSegments first rest).target] = first :: rest := by
            rw [← segments_ofSegments first rest, segments, hdirect, List.nil_append]
          rw [(List.cons.inj hone).1]
          exact hfirst

theorem segments_ne_nil (p : FieldPath) : p.segments ≠ [] := by simp [segments]

/-- The names of a path hold no dots, so its text falls into them again. -/
private theorem split_text {p : FieldPath} (hwritable : p.IsWritable) :
    Text.split '.' p.text = p.segments :=
  Text.split_intercalate p.segments_ne_nil hwritable.noDots

/-- The names of a path tell the path: the last is the target, and those before it the relations. -/
theorem segments_injective {p q : FieldPath} (heq : p.segments = q.segments) : p = q := by
  obtain ⟨hrelations, htarget⟩ := List.append_inj' heq rfl
  cases p
  cases q
  simp_all

/-- The first name of a path is never empty. -/
theorem head_segments_ne {p : FieldPath} (hwritable : p.IsWritable) {first : String}
    {rest : List String} (hsegments : p.segments = first :: rest) : first ≠ "" := by
  obtain ⟨relations, target⟩ := p
  cases relations with
  | nil =>
    have hfirst : target = first := (List.cons.inj hsegments).1
    exact hfirst ▸ hwritable.target_ne rfl
  | cons relation others =>
    have hfirst : relation = first := (List.cons.inj hsegments).1
    exact hfirst ▸ hwritable.relation_ne relation List.mem_cons_self

theorem text_ne_empty {p : FieldPath} (hwritable : p.IsWritable) : p.text ≠ "" := by
  intro hempty
  have hsplit : Text.split '.' "" = p.segments := hempty ▸ split_text hwritable
  exact head_segments_ne hwritable hsplit.symm rfl

/-- A text is read as a path when it is the text of one. -/
theorem parse_eq_ok_iff {raw : String} {p : FieldPath} :
    parse raw = .ok p ↔ p.IsWritable ∧ p.text = raw := by
  constructor
  · intro hparse
    refine ⟨isWritable_of_parse hparse, ?_⟩
    rw [text, segments_of_parse hparse]
    exact Text.intercalate_split '.' raw
  · rintro ⟨hwritable, rfl⟩
    obtain ⟨first, rest, hsegments⟩ := List.exists_cons_of_ne_nil p.segments_ne_nil
    have hrelations : (first :: rest).dropLast = p.relations := by
      rw [← hsegments, segments, List.dropLast_concat]
    have hinner : "" ∉ p.relations := fun hmem => hwritable.relation_ne "" hmem rfl
    have hread : ofSegments first rest = p :=
      segments_injective ((segments_ofSegments first rest).trans hsegments.symm)
    unfold parse
    rw [split_text hwritable, hsegments]
    simp only [if_neg (head_segments_ne hwritable hsegments), hrelations, if_neg hinner, hread]

/-- A relation in front makes an existence path only of the path that has nothing but an empty
    target. -/
theorem isExistence_cons {relation : String} {rest : List String} {target : String}
    (hlookUp : ¬ (rest = [] ∧ target = "")) :
    isExistence ⟨relation :: rest, target⟩ = isExistence ⟨rest, target⟩ := by
  cases rest with
  | nil => simpa [isExistence] using hlookUp
  | cons next others => rfl

/-- A relation that is not the last of an existence path is looked up. -/
theorem hops_cons {relation : String} {rest : List String} {target : String}
    (hlookUp : ¬ (rest = [] ∧ target = "")) :
    hops ⟨relation :: rest, target⟩ = hops ⟨rest, target⟩ + 1 := by
  unfold hops
  rw [isExistence_cons hlookUp]
  split
  · next hexists =>
    have hrest : rest ≠ [] := by
      rintro rfl
      cases hexists
    rw [List.length_cons, Nat.add_sub_cancel,
      Nat.sub_add_cancel (List.length_pos_iff.mpr hrest)]
  · rfl

end FieldPath

end DocQuery
