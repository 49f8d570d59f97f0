import DocQuery.Engine.Basic
import DocQuery.Proofs.Entries

namespace DocQuery

namespace Clause

/-- Every operator takes a JSON string as it takes a text. -/
theorem parseValue_json_str (key : String) (op : Operator) (value : String) :
    parseValue key op (.json (.str value)) = parseValue key op (.text value) := by
  cases op <;> rfl

private theorem parse_json_str (key value : String) :
    parse key (.json (.str value)) = parse key (.text value) := by
  simp only [parse, parseValue_json_str]

end Clause

namespace Params

/-- The members of an object that is built from text pairs. A later pair takes the place of an
    earlier one with its key. -/
def textMembers (pairs : List (String × String)) : List (String × Json) :=
  Entries.ofList (pairs.map fun pair => (pair.1, .str pair.2))

private theorem textMembers_eq_map {pairs : List (String × String)}
    (hdistinct : (pairs.map Prod.fst).Nodup) :
    textMembers pairs = pairs.map fun pair => (pair.1, .str pair.2) := by
  refine Entries.ofList_eq_self ?_
  have hnames : Entries.names
      (pairs.map fun pair => (pair.1, Json.str pair.2)) = pairs.map Prod.fst := by
    simp [Entries.names, Function.comp_def]
  rwa [hnames]

/-- A member with a text is taken in as a text pair, under a reserved key as under any other. -/
theorem addMember_str (p : Params) (pair : String × String) :
    p.addMember (pair.1, .str pair.2) = p.addPair pair := by
  unfold addMember addPair
  cases ReservedKey.ofWord? pair.1 with
  | some key => rfl
  | none => simp only [addClause, Clause.parse_json_str]

private theorem parseJson_map_str (pairs : List (String × String)) :
    parseJson (pairs.map fun pair => (pair.1, .str pair.2)) = parse pairs := by
  unfold parseJson parse
  rw [List.foldlM_map]
  exact congrArg (fun step => pairs.foldlM step {}) (funext fun p => funext (addMember_str p))

end Params

namespace Engine

/-- Text pairs with distinct keys and the object with the same members give the same parameters or
    the same fault, and so the same computation, with its answer, its failure and its reads. -/
theorem runJson_textMembers {pairs : List (String × String)}
    (hdistinct : (pairs.map Prod.fst).Nodup) :
    Params.parseJson (Params.textMembers pairs) = Params.parse pairs ∧
      ∀ config collection,
        runJson config collection (Params.textMembers pairs) =
          runPairs config collection pairs := by
  have hparse : Params.parseJson (Params.textMembers pairs) = Params.parse pairs := by
    rw [Params.textMembers_eq_map hdistinct, Params.parseJson_map_str]
  refine ⟨hparse, fun config collection => ?_⟩
  unfold runJson runPairs
  rw [hparse]

/-- Reserved keys, a marker, a list operator and `isnull`. -/
def samplePairs : List (String × String) :=
  [("populate", "author, tags"), ("[or:x]role_in", "a, b"),
    ("author._isnull", "TRUE"), ("limit", "+5"),
    ("sort", "-at")]

/-- A grouped list and a question for a missing author, on both surfaces. -/
theorem runJson_textMembers_samplePairs :
    (samplePairs.map Prod.fst).Nodup ∧
      (∃ p, Params.parse samplePairs = .ok p ∧ p.clauses =
        [⟨⟨[], "role"⟩, .isIn, .list [.text "a", .text "b"], some "x"⟩,
          ⟨⟨["author"], ""⟩, .isNull, .bool true, none⟩]) ∧
      Params.parseJson (Params.textMembers samplePairs) = Params.parse samplePairs ∧
      ∀ config collection,
        runJson config collection (Params.textMembers samplePairs) =
          runPairs config collection samplePairs :=
  ⟨by decide, ⟨_, rfl, by decide⟩, runJson_textMembers (by decide)⟩

end Engine

end DocQuery
