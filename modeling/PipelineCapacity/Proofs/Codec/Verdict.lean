import PipelineCapacity.Proofs.Codec
import PipelineCapacity.Proofs.Stored.Typing

/-!
What becomes of a text handed to the decoder of pipeline parameters. The checks
come in a fixed order: the text has to be an object of a known kind, then its
policy must not be a strange name, then its fields have to be there with values of
their sorts, and then these values have to be acceptable. The first check that
fails decides how the text is refused, and nothing outside of the fields of the
kind has a say in it.
-/

set_option autoImplicit false

namespace PipelineCapacity.Codec

open Document

variable {text : String} {entries others : List (String × Document)}

/-- A well-formed text of an object with some fields. A number past every finite
one, half a surrogate pair or too deep a nesting make a text malformed; of fields
with one name the last one counts. -/
def Spells (text : String) (entries : List (String × Document)) : Prop :=
  ∃ document, Json.read? text.toList = some document ∧ document.isReadable = true ∧
    document.sorted = .record entries

/-- The policy is given by a name that no policy has. -/
def HasStrangePolicy (entries : List (String × Document)) (token : String) : Prop :=
  field? entries "policy" = some (.text token) ∧ ∀ policy : Policy, policy.name ≠ token

namespace Spells

theorem ascending (spells : Spells text entries) : Ascending entries := by
  obtain ⟨_, _, _, sorted⟩ := spells
  obtain ⟨fields, _, rfl⟩ := exists_fields_of_sorted sorted
  exact ascending_sortedFields fields

theorem readable (spells : Spells text entries) : ∀ entry ∈ entries, entry.2.isReadable = true := by
  obtain ⟨document, _, readable, sorted⟩ := spells
  apply isReadable_record.mp
  rw [← sorted]
  exact isReadable_sorted document readable

theorem decodeModel_eq (spells : Spells text entries) :
    decodeModel text = modelOfDocument (.record entries) := by
  obtain ⟨document, read, readable, sorted⟩ := spells
  unfold decodeModel
  rw [read]
  dsimp only
  rw [if_pos readable, sorted]

end Spells

theorem decodeModel_of_not_spells (unspelt : ∀ entries, ¬Spells text entries) :
    ∃ cause, decodeModel text = .error (.codec cause) := by
  unfold decodeModel
  split
  · exact ⟨_, rfl⟩
  · rename_i document read
    split
    · rename_i readable
      unfold modelOfDocument
      split
      · rename_i entries sorted
        exact absurd ⟨document, read, readable, sorted⟩ (unspelt entries)
      · exact ⟨_, rfl⟩
    · exact ⟨_, rfl⟩

section Checks

theorem ofTag?_eq_some_iff {tag : String} {kind : ModelType} :
    ModelType.ofTag? tag = some kind ↔ kind.tag = tag := by
  constructor
  · intro found
    simpa using List.find?_some found
  · rintro rfl
    cases kind <;> decide

theorem checkKind_of_hasKind {kind : ModelType} (named : HasKind entries kind) :
    checkKind entries = .ok () := by
  unfold checkKind textField?
  rw [named]
  dsimp only
  rw [ofTag?_eq_some_iff.mpr rfl]

theorem checkKind_of_not_hasKind (nameless : ∀ kind, ¬HasKind entries kind) :
    ∃ cause, checkKind entries = .error (.codec cause) := by
  unfold checkKind
  split
  · exact ⟨_, rfl⟩
  · rename_i tag found
    split
    · rename_i kind known
      apply absurd _ (nameless kind)
      unfold HasKind
      rw [ofTag?_eq_some_iff.mp known]
      unfold textField? at found
      split at found
      · rename_i given
        cases found
        exact given
      · cases found
    · exact ⟨_, rfl⟩

theorem checkPolicy_of_strange {token : String} (strange : HasStrangePolicy entries token) :
    checkPolicy entries = .error (.invalidPolicy token) := by
  obtain ⟨given, unknown⟩ := strange
  have nobody : Policy.ofName? token = none := by
    cases found : Policy.ofName? token with
    | none => rfl
    | some policy => exact absurd (Policy.ofName?_eq_some_iff.mp found) (unknown policy)
  unfold checkPolicy textField? Policy.parse
  rw [given]
  dsimp only
  rw [nobody]
  rfl

theorem checkPolicy_of_not_strange (known : ∀ token, ¬HasStrangePolicy entries token) :
    checkPolicy entries = .ok () := by
  unfold checkPolicy textField?
  cases given : field? entries "policy" with
  | none => rfl
  | some document =>
      cases document with
      | text token =>
          unfold Policy.parse
          dsimp only
          cases found : Policy.ofName? token with
          | some policy => rfl
          | none =>
              apply absurd _ (known token)
              refine ⟨given, fun policy same => ?_⟩
              rw [Policy.ofName?_eq_some_iff.mpr same] at found
              cases found
      | _ => rfl

theorem policy_mem_parts (params : ModelParams Float) :
    ("policy", .policy params.base.policy) ∈ params.parts := by
  cases params <;> simp [ModelParams.parts, ModelParams.base, SimpleParams.parts]

theorem policy_mem_fieldNames (kind : ModelType) : "policy" ∈ kind.fieldNames := by
  cases kind <;> decide

theorem not_strange_of_typed {kind : ModelType} (typed : Typed entries kind) (token : String) :
    ¬HasStrangePolicy entries token := by
  rintro ⟨given, unknown⟩
  obtain ⟨params, _, stated⟩ := ModelParams.exists_of_typed typed
  obtain ⟨document, found, states⟩ := stated _ (policy_mem_parts params)
  cases given.symm.trans found
  cases states with
  | name policy => exact unknown _ rfl

end Checks

/-- What is left to do with a record of a known kind. -/
def finish (kind : ModelType) (entries : List (String × Document)) :
    Except (Failure Float) (ModelParams Float) := do
  let params ← (ModelParams.ofKind Dialect.json.aside kind (.record (untagged entries))).mapError
    fun cause => .codec (.reading (.mismatch cause))
  refuse params.validate
  return params

theorem ascending_untagged (ascending : Ascending entries) : Ascending (untagged entries) :=
  ascending.filter _

section Kind

variable {kind : ModelType} (ascending : Ascending entries)
  (readable : ∀ entry ∈ entries, entry.2.isReadable = true)

include ascending readable

theorem modelOfDocument_of_hasKind (named : HasKind entries kind) :
    modelOfDocument (.record entries) = checkPolicy entries >>= fun _ => finish kind entries := by
  unfold modelOfDocument finish
  dsimp only
  rw [checkKind_of_hasKind named,
    ModelParams.ofDocument_of_hasKind ascending.nodup readable named]
  rfl

theorem ofKind_untagged_eq_ok_iff {params : ModelParams Float} :
    ModelParams.ofKind Dialect.json.aside kind (.record (untagged entries)) = .ok params ↔
      params.kind = kind ∧ AllStated entries params.parts :=
  ModelParams.ofKind_untagged_eq_ok_iff ascending.nodup readable

theorem finish_of_allStated {params : ModelParams Float}
    (stated : AllStated entries params.parts) :
    finish params.kind entries = refuse params.validate >>= fun _ => .ok params := by
  unfold finish
  rw [(ofKind_untagged_eq_ok_iff ascending readable).mpr ⟨rfl, stated⟩]
  rfl

/-- The fields of a kind say which parameters they are. -/
theorem existsUnique_of_typed (typed : Typed entries kind) :
    ∃! params : ModelParams Float, params.kind = kind ∧ AllStated entries params.parts := by
  obtain ⟨params, states⟩ := ModelParams.exists_of_typed typed
  have read := (ofKind_untagged_eq_ok_iff ascending readable).mpr states
  refine ⟨params, states, fun other also => ?_⟩
  cases read.symm.trans ((ofKind_untagged_eq_ok_iff ascending readable).mpr also)
  rfl

theorem finish_of_not_typed (untyped : ¬Typed entries kind) :
    ∃ cause, finish kind entries = .error (.codec cause) := by
  unfold finish
  cases read : ModelParams.ofKind Dialect.json.aside kind (.record (untagged entries)) with
  | ok params =>
      have states := (ofKind_untagged_eq_ok_iff ascending readable).mp read
      exact absurd (typed_iff.mpr ⟨params, states⟩) untyped
  | error cause => exact ⟨_, rfl⟩

end Kind

/-- Texts of records of one kind that agree on its fields have one verdict. -/
theorem decodeModel_congr {first second : String} {kind : ModelType}
    (spells : Spells first entries) (also : Spells second others) (named : HasKind entries kind)
    (alsoNamed : HasKind others kind)
    (agree : ∀ name ∈ kind.fieldNames, field? entries name = field? others name) :
    decodeModel first = decodeModel second := by
  have policy : checkPolicy entries = checkPolicy others := by
    unfold checkPolicy textField?
    rw [agree "policy" (policy_mem_fieldNames kind)]
  have read : ModelParams.ofKind Dialect.json.aside kind (.record (untagged entries)) =
      ModelParams.ofKind Dialect.json.aside kind (.record (untagged others)) := by
    apply ModelParams.ofKind_congr (ascending_untagged spells.ascending)
      (ascending_untagged also.ascending) (readable_untagged spells.readable)
      (readable_untagged also.readable)
    intro name member
    rw [field?_untagged spells.ascending.nodup member,
      field?_untagged also.ascending.nodup member, agree name member]
  rw [spells.decodeModel_eq, also.decodeModel_eq,
    modelOfDocument_of_hasKind spells.ascending spells.readable named,
    modelOfDocument_of_hasKind also.ascending also.readable alsoNamed, policy]
  unfold finish
  rw [read]

section Verdict

variable {kind : ModelType} (spells : Spells text entries)

include spells

theorem decodeModel_of_not_hasKind (nameless : ∀ kind, ¬HasKind entries kind) :
    ∃ cause, decodeModel text = .error (.codec cause) := by
  obtain ⟨cause, refused⟩ := checkKind_of_not_hasKind nameless
  use cause
  rw [spells.decodeModel_eq]
  unfold modelOfDocument
  dsimp only
  rw [refused]
  rfl

theorem decodeModel_of_hasKind (named : HasKind entries kind) :
    decodeModel text = checkPolicy entries >>= fun _ => finish kind entries := by
  rw [spells.decodeModel_eq, modelOfDocument_of_hasKind spells.ascending spells.readable named]

theorem decodeModel_of_strange (named : HasKind entries kind) {token : String}
    (strange : HasStrangePolicy entries token) :
    decodeModel text = .error (.invalidPolicy token) := by
  rw [decodeModel_of_hasKind spells named, checkPolicy_of_strange strange]
  rfl

theorem decodeModel_of_not_typed (named : HasKind entries kind)
    (known : ∀ token, ¬HasStrangePolicy entries token) (untyped : ¬Typed entries kind) :
    ∃ cause, decodeModel text = .error (.codec cause) := by
  obtain ⟨cause, refused⟩ := finish_of_not_typed spells.ascending spells.readable untyped
  use cause
  rw [decodeModel_of_hasKind spells named, checkPolicy_of_not_strange known, ← refused]
  rfl

/-- A record that states the values of some parameters makes these, if they are valid. -/
theorem decodeModel_of_allStated {params : ModelParams Float} (named : HasKind entries params.kind)
    (stated : AllStated entries params.parts) :
    decodeModel text = refuse params.validate >>= fun _ => .ok params := by
  have known := not_strange_of_typed (typed_iff.mpr ⟨params, rfl, stated⟩)
  rw [decodeModel_of_hasKind spells named, checkPolicy_of_not_strange known,
    ← finish_of_allStated spells.ascending spells.readable stated]
  rfl

/-- A refused record is refused by one of the four checks, taken here in their order. -/
theorem decodeModel_error_cases {failure : Failure Float} (failed : decodeModel text = .error failure) :
    (∃ cause, failure = .codec cause) ∨ (∃ token, failure = .invalidPolicy token) ∨
      ∃ cause, failure = .invalidParameter cause := by
  by_cases named : ∃ kind, HasKind entries kind
  · obtain ⟨kind, named⟩ := named
    by_cases strange : ∃ token, HasStrangePolicy entries token
    · obtain ⟨token, strange⟩ := strange
      cases failed.symm.trans (decodeModel_of_strange spells named strange)
      exact .inr (.inl ⟨token, rfl⟩)
    · by_cases typed : Typed entries kind
      · obtain ⟨params, rfl, stated⟩ := ModelParams.exists_of_typed typed
        have decoded := failed.symm.trans (decodeModel_of_allStated spells named stated)
        cases checked : params.validate with
        | error cause =>
            rw [checked] at decoded
            cases decoded
            exact .inr (.inr ⟨cause, rfl⟩)
        | ok accepted =>
            rw [checked] at decoded
            cases decoded
      · obtain ⟨cause, refused⟩ :=
          decodeModel_of_not_typed spells named (not_exists.mp strange) typed
        cases failed.symm.trans refused
        exact .inl ⟨cause, rfl⟩
  · obtain ⟨cause, refused⟩ := decodeModel_of_not_hasKind spells (not_exists.mp named)
    cases failed.symm.trans refused
    exact .inl ⟨cause, rfl⟩

end Verdict

/-- Every text is classified, in a fixed order: what is no record of a known kind
is refused as such; then a strange name of a policy is reported, whatever else is
missing or wrong; then a field that is missing or of another sort; then values
that are not acceptable; and what is left makes parameters of the kind, with the
values of its fields. There is no other failure, and what a record holds besides
the fields of its kind makes no difference. -/
theorem decodeModel_classifies :
    (∀ text, (∀ entries, ¬Spells text entries) →
      ∃ cause, decodeModel text = .error (.codec cause)) ∧
    (∀ text entries, Spells text entries →
      ((∀ kind, ¬HasKind entries kind) → ∃ cause, decodeModel text = .error (.codec cause)) ∧
      ∀ kind, HasKind entries kind →
        (∀ token, HasStrangePolicy entries token →
          decodeModel text = .error (.invalidPolicy token)) ∧
        ((∀ token, ¬HasStrangePolicy entries token) → ¬Typed entries kind →
          ∃ cause, decodeModel text = .error (.codec cause)) ∧
        (Typed entries kind →
          ∃! params : ModelParams Float, params.kind = kind ∧ AllStated entries params.parts) ∧
        ∀ params : ModelParams Float, params.kind = kind → AllStated entries params.parts →
          (∀ cause, params.validate = .error cause →
            decodeModel text = .error (.invalidParameter cause)) ∧
          (params.validate = .ok () → decodeModel text = .ok params)) ∧
    (∀ text failure, decodeModel text = .error failure →
      (∃ cause, failure = .codec cause) ∨ (∃ token, failure = .invalidPolicy token) ∨
        ∃ cause, failure = .invalidParameter cause) ∧
    ∀ first second entries others kind, Spells first entries → Spells second others →
      HasKind entries kind → HasKind others kind →
      (∀ name ∈ kind.fieldNames, field? entries name = field? others name) →
        decodeModel first = decodeModel second := by
  refine ⟨fun _ => decodeModel_of_not_spells, ?_, ?_, ?_⟩
  · intro text entries spells
    refine ⟨decodeModel_of_not_hasKind spells, fun kind named => ⟨?_, ?_, ?_, ?_⟩⟩
    · exact fun _ => decodeModel_of_strange spells named
    · exact decodeModel_of_not_typed spells named
    · exact existsUnique_of_typed spells.ascending spells.readable
    · rintro params rfl stated
      have decoded := decodeModel_of_allStated spells named stated
      constructor
      · intro cause refused
        rw [decoded, refused]
        rfl
      · intro valid
        rw [decoded, valid]
        rfl
  · intro text failure failed
    by_cases spelt : ∃ entries, Spells text entries
    · obtain ⟨entries, spells⟩ := spelt
      exact decodeModel_error_cases spells failed
    · obtain ⟨cause, refused⟩ := decodeModel_of_not_spells (not_exists.mp spelt)
      cases failed.symm.trans refused
      exact .inl ⟨cause, rfl⟩
  · intro first second entries others kind spells also named alsoNamed agree
    exact decodeModel_congr spells also named alsoNamed agree

/-- The text of a record spells its fields. -/
theorem spells_write {fields : List (String × Document)}
    (legible : Json.Legible Json.maxDepth (.record fields))
    (readable : (record fields).isReadable = true) (style : Json.Style) :
    Spells (Json.write style (.record fields)) (sortedFields fields []) :=
  ⟨_, Json.read?_write legible style, readable, rfl⟩

/-- Fields of a single unit, all amounts whole. -/
def bareUnit : List (String × Document) :=
  [("model_type", .text "simple"), ("maxrate_rph", .integer 100), ("per_vm_hourcost", .integer 1),
    ("avg_latency_s", .integer 2), ("policy", .text "fifo")]

/-- The same after a policy that does not last and a delay that is none. -/
def crowdedUnit : List (String × Document) :=
  ("policy", .text "nobody") :: ("up_delay", .text "soon") :: bareUnit

/-- A strange policy and nothing else but the kind. -/
def hollowPipeline : List (String × Document) :=
  [("model_type", .text "autoscaling"), ("policy", .text "priority")]

def smallUnit : ModelParams Float :=
  .simple
    { maxRate := Decimal.ofInt 100
      unitCost := Decimal.ofInt 1
      baseLatency := Decimal.ofInt 2
      policy := .fifo }

theorem decodeModel_classifies_crowdedUnit :
    decodeModel (Json.write .compact (.record bareUnit)) = .ok smallUnit ∧
      decodeModel (Json.write .compact (.record crowdedUnit)) =
        decodeModel (Json.write .compact (.record bareUnit)) ∧
      decodeModel (Json.write .pretty (.record hollowPipeline)) =
        .error (.invalidPolicy "priority") ∧
      ∃ cause, decodeModel "" = .error (.codec cause) := by
  have found (fields : List (String × Document)) (name : String) {value : Document}
      (last : field? fields name = some value) (leaf : value.IsLeaf) :
      field? (sortedFields fields []) name = some value := by
    rw [field?_sortedFields, last, Option.map_some, leaf.sorted]
  have bareLegible : ∀ field ∈ bareUnit, Json.Legible 126 field.2 := by
    simp only [bareUnit, List.forall_mem_cons]
    exact ⟨.text _, .integer (by decide) (by decide), .integer (by decide) (by decide),
      .integer (by decide) (by decide), .text _, List.forall_mem_nil _⟩
  have crowdedLegible : ∀ field ∈ crowdedUnit, Json.Legible 126 field.2 := by
    simp only [crowdedUnit, List.forall_mem_cons]
    exact ⟨.text _, .text _, bareLegible⟩
  have hollowLegible : ∀ field ∈ hollowPipeline, Json.Legible 126 field.2 := by
    simp only [hollowPipeline, List.forall_mem_cons]
    exact ⟨.text _, .text _, List.forall_mem_nil _⟩
  have bare := spells_write (.record bareLegible) rfl .compact
  have crowded := spells_write (.record crowdedLegible) rfl .compact
  have hollow := spells_write (.record hollowLegible) rfl .pretty
  have bareKind : HasKind (sortedFields bareUnit []) .simple := found _ _ rfl trivial
  have crowdedKind : HasKind (sortedFields crowdedUnit []) .simple := found _ _ rfl trivial
  have hollowKind : HasKind (sortedFields hollowPipeline []) .autoscaling := found _ _ rfl trivial
  obtain ⟨unspelt, spelt, _, alike⟩ := decodeModel_classifies
  refine ⟨?_, ?_, ?_, ?_⟩
  · have stated : AllStated (sortedFields bareUnit []) smallUnit.parts := by
      have whole (name : String) (amount : Int)
          (given : field? bareUnit name = some (.integer amount)) :
          Stated (sortedFields bareUnit []) name (.amount (Decimal.ofInt amount)) :=
        ⟨_, found bareUnit name given trivial, .whole amount⟩
      have policy : field? (sortedFields bareUnit []) "policy" = some (.text Policy.fifo.name) :=
        found _ _ rfl trivial
      simp only [smallUnit, ModelParams.parts, SimpleParams.parts, allStated_cons]
      exact ⟨whole _ 100 rfl, whole _ 1 rfl, whole _ 2 rfl, ⟨_, policy, .name .fifo⟩,
        List.forall_mem_nil _⟩
    have valid : smallUnit.validate = .ok () := rfl
    exact (((spelt _ _ bare).2 .simple bareKind).2.2.2 smallUnit rfl stated).2 valid
  · have same : ∀ name ∈ ModelType.simple.fieldNames,
        field? crowdedUnit name = field? bareUnit name := by
      simp only [ModelType.fieldNames, ModelType.fields, ModelType.unitFields, List.map,
        List.forall_mem_cons]
      exact ⟨rfl, rfl, rfl, rfl, List.forall_mem_nil _⟩
    apply alike _ _ _ _ .simple crowded bare crowdedKind bareKind
    intro name member
    rw [field?_sortedFields, field?_sortedFields, same name member]
  · have strange : HasStrangePolicy (sortedFields hollowPipeline []) "priority" :=
      ⟨found _ _ rfl trivial, fun policy => by cases policy <;> decide⟩
    exact ((spelt _ _ hollow).2 .autoscaling hollowKind).1 "priority" strange
  · apply unspelt
    rintro entries ⟨document, read, _⟩
    cases read

end PipelineCapacity.Codec
