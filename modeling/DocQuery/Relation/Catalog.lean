import DocQuery.Config
import DocQuery.Relation.Words
import DocQuery.Warning

/-!
References between documents, told from the names of fields alone. A field is a reference exactly
when its name ends in `_id`, for one target, or `_ids`, for many; the plural of what comes before
names the collection it leads to. The same names and collections always give the same references.
-/
namespace DocQuery

/-- How many targets a reference field holds. -/
inductive Cardinality where
  | single
  | many
deriving DecidableEq, Repr

/-- What a reference leads to. Users come before other collections in the order of targets. -/
inductive TargetKind where
  | user
  | collection
deriving DecidableEq, Repr

/-- The collection that a reference leads to. -/
structure Target where
  kind : TargetKind
  name : String
deriving DecidableEq, Repr

namespace Target

/-- The place of a kind among kinds. -/
def rank : TargetKind → Nat
  | .user => 0
  | .collection => 1

/-- Targets are ordered by kind, and then by name. -/
instance : Ord Target where
  compare a b := (compare (rank a.kind) (rank b.kind)).then (compare a.name b.name)

theorem compare_eq_then (a b : Target) :
    compare a b = (compare (rank a.kind) (rank b.kind)).then (compare a.name b.name) := rfl

private theorem rank_injective {a b : TargetKind} (h : rank a = rank b) : a = b := by
  cases a <;> cases b <;> simp [rank] at h ⊢

/-- Targets that compare equal are equal. -/
instance : Std.LawfulEqOrd Target where
  compare_self := by
    intro a
    rw [compare_eq_then, Ordering.then_eq_eq]
    exact ⟨Std.ReflOrd.compare_self, Std.ReflOrd.compare_self⟩
  eq_of_compare := by
    intro a b h
    rw [compare_eq_then, Ordering.then_eq_eq] at h
    cases a
    cases b
    congr
    · exact rank_injective (Std.LawfulEqOrd.eq_of_compare h.1)
    · exact Std.LawfulEqOrd.eq_of_compare h.2

instance : Std.TransOrd Target :=
  inferInstanceAs
    (Std.TransCmp (compareLex (compareOn fun t : Target => rank t.kind) (compareOn Target.name)))

end Target

/-- What the name of a field says about the reference it holds. -/
structure Reference where
  field : String
  cardinality : Cardinality
  target : Target
  /-- Whether no collection was found, so that users were assumed. -/
  assumed : Bool
  /-- The plural that was looked up. -/
  plural : String
deriving DecidableEq, Repr

namespace Reference

/-- The warning for a reference whose target was assumed. -/
def warning? (r : Reference) : Option Warning :=
  if r.assumed then some (.assumedTarget r.field r.plural r.target.name) else none

/-- The warnings of several references, for each plural once: the first reference with a plural
    speaks for the others. -/
def warnings (references : List Reference) : List Warning :=
  (references.foldl
    (fun (seen, found) r =>
      if r.plural ∈ seen then (seen, found) else (r.plural :: seen, found ++ r.warning?.toList))
    ([], [])).2

end Reference

/-- What references are resolved against: the names for users and the collections that exist. -/
structure Catalog where
  users : UserNames
  collections : List String
deriving Repr

namespace Catalog

/-- Splits the name of a reference field into its stem and its cardinality. -/
def stem? (field : String) : Option (String × Cardinality) :=
  match Text.dropEnd? "_ids" field with
  | some stem => some (stem, .many)
  | none => (Text.dropEnd? "_id" field).map (·, .single)

/-- Where the plural of a stem leads, and whether that had to be assumed. -/
def target (catalog : Catalog) (plural : String) : Target × Bool :=
  if plural ∈ catalog.users.aliases then (⟨.user, catalog.users.collection⟩, false)
  else if plural ∈ catalog.collections then (⟨.collection, plural⟩, false)
  else (⟨.user, catalog.users.collection⟩, true)

/-- The reference that a field holds by its name. -/
def resolve? (catalog : Catalog) (field : String) : Option Reference := do
  let (stem, cardinality) ← stem? field
  if stem = "" then none
  else
    let plural := Words.pluralize stem
    let (target, assumed) := catalog.target plural
    some { field, cardinality, target, assumed, plural }

/-- The fields that a relation may be stored under: its name with either ending, or, when it looks
    plural, its singular with the plural ending. -/
def fieldsOf (relation : String) : List String :=
  let singular := Words.singularize relation
  [relation ++ "_id", relation ++ "_ids"] ++
    if singular = relation then [] else [singular ++ "_ids"]

/-- The references that a relation may be stored as, in order of preference. A name that is a
    reference field itself stands for that field alone. -/
def candidates (catalog : Catalog) (relation : String) : List Reference :=
  match catalog.resolve? relation with
  | some reference => [reference]
  | none => (fieldsOf relation).filterMap catalog.resolve?

/-- The name of the relation that a field stores. A name without an ending is one already. -/
def relationName (field : String) : String :=
  match stem? field with
  | some (stem, _) => stem
  | none => field

end Catalog

end DocQuery
