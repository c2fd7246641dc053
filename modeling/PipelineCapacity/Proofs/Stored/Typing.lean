import PipelineCapacity.Proofs.Document.Relevance
import PipelineCapacity.Stored.Pipeline

/-!
The fields that parameters of a kind are read from. Each of them holds a value of
one sort. Parameters are read from a record exactly if it states all their
values, there are such parameters exactly if every field is there with a value of
its sort, and what else the record holds makes no difference.
-/

set_option autoImplicit false

namespace PipelineCapacity

open Document

/-- The greatest delay, as of any count of 32 binary places. -/
def maxDelay : Nat := 4294967295

/-- A value among the parameters of a pipeline. -/
inductive Part where
  | amount (value : Float)
  | count (number : Nat)
  | policy (policy : Policy)

/-- What a field is for. -/
inductive FieldSort where
  | amount
  | count
  | policy
  deriving DecidableEq, Repr

def Part.sort : Part → FieldSort
  | amount _ => .amount
  | count _ => .count
  | policy _ => .policy

/-- The documents that state a part. A count has at most 32 binary places; the name
of a policy stands for itself or has nothing under it. -/
inductive Document.States : Document → Part → Prop
  | number (value : Float) : States (.number value) (.amount value)
  | whole (value : Int) : States (.integer value) (.amount (Decimal.ofInt value))
  | count {number : Nat} (small : number ≤ maxDelay) : States (.integer number) (.count number)
  | name (policy : Policy) : States (.text policy.name) (.policy policy)
  | overNull (policy : Policy) : States (.record [(policy.name, .null)]) (.policy policy)
  | overNothing (policy : Policy) : States (.record [(policy.name, .record [])]) (.policy policy)

/-- Documents that state some part of a sort. -/
def FieldSort.Admits (sort : FieldSort) (document : Document) : Prop :=
  ∃ part : Part, part.sort = sort ∧ document.States part

section Parts

def SimpleParams.parts (params : SimpleParams Float) : List (String × Part) :=
  [("maxrate_rph", .amount params.maxRate), ("per_vm_hourcost", .amount params.unitCost),
    ("avg_latency_s", .amount params.baseLatency), ("policy", .policy params.policy)]

def ScalingRule.parts (rule : ScalingRule Float) : List (String × Part) :=
  [("up_pct_trigger", .amount rule.upPercent), ("up_delay", .count rule.upDelay),
    ("down_pct_trigger", .amount rule.downPercent), ("down_delay", .count rule.downDelay)]

/-- The values of the parameters by their fields. -/
def ModelParams.parts : ModelParams Float → List (String × Part)
  | simple params => params.parts
  | quickScaling params => ("fixed_hourcost", .amount params.fixedCost) :: params.base.parts
  | autoscaling params | autoscalingFine params =>
      ("fixed_hourcost", .amount params.fixedCost) :: (params.rule.parts ++ params.base.parts)

namespace ModelType

/-- The fields of the single unit, of every kind the last ones. -/
def unitFields : List (String × FieldSort) :=
  [("maxrate_rph", .amount), ("per_vm_hourcost", .amount), ("avg_latency_s", .amount),
    ("policy", .policy)]

def ruleFields : List (String × FieldSort) :=
  [("up_pct_trigger", .amount), ("up_delay", .count), ("down_pct_trigger", .amount),
    ("down_delay", .count)]

/-- The fields of a kind, apart from the kind itself. -/
def fields : ModelType → List (String × FieldSort)
  | simple => unitFields
  | quickScaling => ("fixed_hourcost", .amount) :: unitFields
  | autoscaling | autoscalingFine => ("fixed_hourcost", .amount) :: (ruleFields ++ unitFields)

def fieldNames (kind : ModelType) : List String := kind.fields.map (·.1)

end ModelType

theorem ModelParams.sorts_parts (params : ModelParams Float) :
    params.parts.map (Prod.map id Part.sort) = params.kind.fields := by
  cases params <;> rfl

end Parts

/-- A field has a value that states a part. -/
def Stated (entries : List (String × Document)) (name : String) (part : Part) : Prop :=
  ∃ document, field? entries name = some document ∧ document.States part

/-- Every one of some values is stated under its name. -/
def AllStated (entries : List (String × Document)) (parts : List (String × Part)) : Prop :=
  ∀ part ∈ parts, Stated entries part.1 part.2

/-- Every field of a kind is there, with a value of its sort. -/
def Typed (entries : List (String × Document)) (kind : ModelType) : Prop :=
  ∀ field ∈ kind.fields, ∃ document,
    field? entries field.1 = some document ∧ field.2.Admits document

section Values

variable {document : Document} (dialect : Dialect)

theorem Dialect.readReal_eq_ok_iff {value : Float} :
    dialect.readReal document = .ok value ↔ document.States (.amount value) := by
  constructor
  · intro read
    cases document with
    | number value =>
        cases read
        exact .number value
    | integer value =>
        cases read
        exact .whole value
    | _ => cases read
  · intro states
    cases states <;> rfl

theorem Dialect.readCount_eq_ok_iff {number : Nat} :
    dialect.readCount document = .ok number ↔ document.States (.count number) := by
  constructor
  · intro read
    obtain ⟨value, found, rfl⟩ := map_eq_ok_iff.mp read
    unfold readInteger at found
    split at found
    · split at found
      · rename_i inside
        cases found
        have small : value.toNat ≤ maxDelay := Int.toNat_le.mpr inside.2
        rw [← Int.toNat_of_nonneg inside.1]
        exact .count small
      · cases found
    · cases found
  · intro states
    cases states with
    | count small =>
        unfold maxDelay at small
        unfold readCount readInteger
        dsimp only
        rw [if_pos (by omega)]
        rfl

theorem Dialect.readCount_le {number : Nat} (read : dialect.readCount document = .ok number) :
    number ≤ maxDelay := by
  cases dialect.readCount_eq_ok_iff.mp read with
  | count small => exact small

/-- A chosen name is that of a variant, with nothing said after it. -/
theorem Dialect.readVariant_eq_ok_iff {β : Type} {known : List β} {label : β → String}
    {name : String} {value? : Option Document}
    (chosen : dialect.choice document = .ok (name, value?, none)) {variant : β} :
    dialect.readVariant known label document = .ok variant ↔
      known.find? (fun variant => label variant == name) = some variant ∧
        ∀ value ∈ value?, dialect.readNothing value = .ok () := by
  unfold readVariant
  rw [bind_eq_ok_iff]
  simp only [chosen, Except.ok.injEq, exists_eq_left']
  cases known.find? fun variant => label variant == name with
  | none => exact iff_of_false nofun (fun both => nomatch both.1)
  | some found =>
      cases value? with
      | none =>
          change Except.ok found = Except.ok variant ↔ _
          simp
      | some value =>
          change (dialect.readNothing value >>= fun _ => Except.ok found) = Except.ok variant ↔ _
          rw [bind_eq_ok_iff]
          constructor
          · rintro ⟨_, nothing, same⟩
            cases same
            exact ⟨rfl, fun _ given => Option.some.inj given ▸ nothing⟩
          · rintro ⟨same, nothing⟩
            cases same
            exact ⟨(), nothing value rfl, rfl⟩

theorem Dialect.readNothing_aside_eq_ok_iff :
    dialect.aside.readNothing document = .ok () ↔ document = .null ∨ document = .record [] := by
  have kept : (dialect.aside.isToml && !dialect.aside.isKeptAside) = false := Bool.and_false _
  unfold readNothing
  rw [kept]
  constructor
  · intro read
    cases document with
    | null => exact .inl rfl
    | record fields =>
        cases fields with
        | nil => exact .inr rfl
        | cons field rest => cases read
    | _ => cases read
  · intro nothing
    rcases nothing with rfl | rfl <;> rfl

theorem Policy.ofName?_eq_some_iff {name : String} {policy : Policy} :
    ofName? name = some policy ↔ policy.name = name := by
  constructor
  · intro found
    simpa using List.find?_some found
  · rintro rfl
    exact ofName?_name policy

theorem Policy.ofDocument_eq_ok_iff {policy : Policy} :
    ofDocument dialect.aside document = .ok policy ↔ document.States (.policy policy) := by
  have single {name : String} {value : Document} :
      ofDocument dialect.aside (.record [(name, value)]) = .ok policy ↔
        ofName? name = some policy ∧
          ∀ other ∈ some value, dialect.aside.readNothing other = .ok () :=
    dialect.aside.readVariant_eq_ok_iff rfl
  constructor
  · intro read
    cases document with
    | text name =>
        have named := ((dialect.aside.readVariant_eq_ok_iff rfl).mp read).1
        rw [← ofName?_eq_some_iff.mp named]
        exact .name policy
    | record fields =>
        rcases fields with _ | ⟨⟨name, value⟩, _ | _⟩
        · cases read
        · obtain ⟨named, nothing⟩ := single.mp read
          rw [← ofName?_eq_some_iff.mp named]
          rcases dialect.readNothing_aside_eq_ok_iff.mp (nothing value rfl) with rfl | rfl
          · exact .overNull policy
          · exact .overNothing policy
        · cases read
    | _ => cases read
  · intro states
    cases states with
    | name => exact (dialect.aside.readVariant_eq_ok_iff rfl).mpr ⟨ofName?_name policy, nofun⟩
    | overNull =>
        apply single.mpr ⟨ofName?_name policy, _⟩
        rintro _ ⟨⟩
        exact dialect.readNothing_aside_eq_ok_iff.mpr (.inl rfl)
    | overNothing =>
        apply single.mpr ⟨ofName?_name policy, _⟩
        rintro _ ⟨⟩
        exact dialect.readNothing_aside_eq_ok_iff.mpr (.inr rfl)

end Values

section Fields

variable {entries : List (String × Document)} {dialect : Dialect} {name : String} {index : Nat}

theorem get_real_eq_done_iff (distinct : (entries.map (·.1)).Nodup) {value : Float} :
    (Fields.named entries).get index name dialect.readReal = .done value ↔
      Stated entries name (.amount value) := by
  rw [Fields.get_eq_done_iff distinct]
  exact exists_congr fun _ => and_congr_right' dialect.readReal_eq_ok_iff

theorem get_count_eq_done_iff (distinct : (entries.map (·.1)).Nodup) {number : Nat} :
    (Fields.named entries).get index name dialect.readCount = .done number ↔
      Stated entries name (.count number) := by
  rw [Fields.get_eq_done_iff distinct]
  exact exists_congr fun _ => and_congr_right' dialect.readCount_eq_ok_iff

theorem get_policy_eq_done_iff (distinct : (entries.map (·.1)).Nodup) {policy : Policy} :
    (Fields.named entries).get index name (Policy.ofDocument dialect.aside) = .done policy ↔
      Stated entries name (.policy policy) := by
  rw [Fields.get_eq_done_iff distinct]
  exact exists_congr fun _ => and_congr_right' (Policy.ofDocument_eq_ok_iff dialect)

theorem SimpleParams.gather_eq_done_iff (distinct : (entries.map (·.1)).Nodup)
    {params : SimpleParams Float} :
    gather dialect.aside (.named entries) = .done params ↔ AllStated entries params.parts := by
  simp only [gather, Gathered.seq_eq_done_iff, Gathered.map_eq_done_iff,
    get_real_eq_done_iff distinct, get_policy_eq_done_iff distinct, AllStated, parts,
    List.forall_mem_cons]
  constructor
  · rintro ⟨_, _, ⟨_, _, ⟨_, _, ⟨_, rate, rfl⟩, cost, rfl⟩, latency, rfl⟩, policy, rfl⟩
    exact ⟨rate, cost, latency, policy, List.forall_mem_nil _⟩
  · rintro ⟨rate, cost, latency, policy, _⟩
    exact ⟨_, _, ⟨_, _, ⟨_, _, ⟨_, rate, rfl⟩, cost, rfl⟩, latency, rfl⟩, policy, rfl⟩

theorem ScalingRule.gather_eq_done_iff (distinct : (entries.map (·.1)).Nodup)
    {rule : ScalingRule Float} :
    gather dialect (.named entries) = .done rule ↔ AllStated entries rule.parts := by
  simp only [gather, Gathered.seq_eq_done_iff, Gathered.map_eq_done_iff,
    get_real_eq_done_iff distinct, get_count_eq_done_iff distinct, AllStated, parts,
    List.forall_mem_cons]
  constructor
  · rintro ⟨_, _, ⟨_, _, ⟨_, _, ⟨_, upPercent, rfl⟩, upDelay, rfl⟩, downPercent, rfl⟩,
      downDelay, rfl⟩
    exact ⟨upPercent, upDelay, downPercent, downDelay, List.forall_mem_nil _⟩
  · rintro ⟨upPercent, upDelay, downPercent, downDelay, _⟩
    exact ⟨_, _, ⟨_, _, ⟨_, _, ⟨_, upPercent, rfl⟩, upDelay, rfl⟩, downPercent, rfl⟩,
      downDelay, rfl⟩

end Fields

section Kinds

variable {entries others : List (String × Document)} {dialect : Dialect}

theorem allStated_append {parts more : List (String × Part)} :
    AllStated entries (parts ++ more) ↔ AllStated entries parts ∧ AllStated entries more :=
  List.forall_mem_append

theorem allStated_cons {part : String × Part} {parts : List (String × Part)} :
    AllStated entries (part :: parts) ↔ Stated entries part.1 part.2 ∧ AllStated entries parts :=
  List.forall_mem_cons

theorem SimpleParams.ofEntries_eq_ok_iff (distinct : (entries.map (·.1)).Nodup)
    {params : SimpleParams Float} :
    ofEntries dialect entries = .ok params ↔ AllStated entries params.parts := by
  unfold ofEntries
  rw [Gathered.result_eq_ok_iff, gather_eq_done_iff distinct]

theorem QuickScalingParams.ofEntries_eq_ok_iff (distinct : (entries.map (·.1)).Nodup)
    {params : QuickScalingParams Float} :
    ofEntries dialect entries = .ok params ↔
      AllStated entries (("fixed_hourcost", .amount params.fixedCost) :: params.base.parts) := by
  unfold ofEntries
  simp only [bind_eq_ok_iff, Gathered.result_eq_ok_iff, get_real_eq_done_iff distinct,
    SimpleParams.ofEntries_eq_ok_iff distinct, allStated_cons]
  constructor
  · rintro ⟨_, cost, _, base, same⟩
    cases same
    exact ⟨cost, base⟩
  · rintro ⟨cost, base⟩
    exact ⟨_, cost, _, base, rfl⟩

theorem AutoscalingParams.ofEntries_eq_ok_iff (distinct : (entries.map (·.1)).Nodup)
    {params : AutoscalingParams Float} :
    ofEntries dialect entries = .ok params ↔
      AllStated entries (("fixed_hourcost", .amount params.fixedCost) ::
        (params.rule.parts ++ params.base.parts)) := by
  unfold ofEntries gather
  simp only [bind_eq_ok_iff, Gathered.result_eq_ok_iff, Gathered.seq_eq_done_iff,
    Gathered.map_eq_done_iff, get_real_eq_done_iff distinct,
    ScalingRule.gather_eq_done_iff distinct,
    SimpleParams.ofEntries_eq_ok_iff distinct, allStated_cons, allStated_append]
  constructor
  · rintro ⟨_, ⟨_, _, ⟨_, cost, rfl⟩, rule, rfl⟩, _, base, same⟩
    cases same
    exact ⟨cost, rule, base⟩
  · rintro ⟨cost, rule, base⟩
    exact ⟨_, ⟨_, _, ⟨_, cost, rfl⟩, rule, rfl⟩, _, base, rfl⟩

namespace ModelParams

/-- Parameters of one kind, read as what they are made of. -/
theorem map_kind_eq_ok_iff {β : Type} (make : β → ModelParams Float) {reading : Reading β}
    {kind : ModelType}
    (made : ∀ params : ModelParams Float, params.kind = kind ↔ ∃ part, make part = params)
    (reads : ∀ part, reading = .ok part ↔ AllStated entries (make part).parts)
    {params : ModelParams Float} :
    reading.map make = .ok params ↔ params.kind = kind ∧ AllStated entries params.parts := by
  rw [map_eq_ok_iff, made]
  constructor
  · rintro ⟨part, read, rfl⟩
    exact ⟨⟨part, rfl⟩, (reads part).mp read⟩
  · rintro ⟨⟨part, rfl⟩, stated⟩
    exact ⟨part, (reads part).mpr stated, rfl⟩

/-- From a record without repeated names those parameters of a kind are read whose
values it states. -/
theorem ofKind_eq_ok_iff (distinct : (entries.map (·.1)).Nodup)
    (readable : ∀ entry ∈ entries, entry.2.isReadable = true) {kind : ModelType}
    {params : ModelParams Float} :
    ofKind dialect.aside kind (.record entries) = .ok params ↔
      params.kind = kind ∧ AllStated entries params.parts := by
  cases kind with
  | simple =>
      apply map_kind_eq_ok_iff simple
      · intro params
        cases params <;> simp [ModelParams.kind]
      · intro unit
        unfold SimpleParams.ofDocument
        rw [Shape.read_record, Gathered.result_eq_ok_iff,
          SimpleParams.gather_eq_done_iff distinct]
        rfl
  | quickScaling =>
      apply map_kind_eq_ok_iff quickScaling
      · intro params
        cases params <;> simp [ModelParams.kind]
      · intro part
        unfold QuickScalingParams.ofDocument
        rw [Shape.readNamed_record readable]
        exact QuickScalingParams.ofEntries_eq_ok_iff distinct
  | autoscaling =>
      apply map_kind_eq_ok_iff autoscaling
      · intro params
        cases params <;> simp [ModelParams.kind]
      · intro part
        unfold AutoscalingParams.ofDocument
        rw [Shape.readNamed_record readable]
        exact AutoscalingParams.ofEntries_eq_ok_iff distinct
  | autoscalingFine =>
      apply map_kind_eq_ok_iff autoscalingFine
      · intro params
        cases params <;> simp [ModelParams.kind]
      · intro part
        unfold AutoscalingParams.ofDocument
        rw [Shape.readNamed_record readable]
        exact AutoscalingParams.ofEntries_eq_ok_iff distinct

end ModelParams

/-- The fields without the kind. -/
def untagged (entries : List (String × Document)) : List (String × Document) :=
  entries.filter fun entry => entry.1 != "model_type"

/-- A record says that it is of a kind. -/
def HasKind (entries : List (String × Document)) (kind : ModelType) : Prop :=
  field? entries "model_type" = some (.text kind.tag)

theorem nodup_untagged (distinct : (entries.map (·.1)).Nodup) :
    ((untagged entries).map (·.1)).Nodup :=
  (List.filter_sublist.map _).nodup distinct

theorem readable_untagged (readable : ∀ entry ∈ entries, entry.2.isReadable = true) :
    ∀ entry ∈ untagged entries, entry.2.isReadable = true :=
  fun entry member => readable entry (List.mem_filter.mp member).1

theorem ModelType.ne_of_mem_fieldNames {kind : ModelType} {name : String}
    (member : name ∈ kind.fieldNames) : name ≠ "model_type" := by
  rintro rfl
  revert member
  cases kind <;> decide

theorem field?_untagged (distinct : (entries.map (·.1)).Nodup) {kind : ModelType} {name : String}
    (member : name ∈ kind.fieldNames) : field? (untagged entries) name = field? entries name :=
  field?_filter distinct fun _ => bne_iff_ne.mpr (kind.ne_of_mem_fieldNames member)

/-- The kind is not among the values. -/
theorem ModelParams.allStated_untagged (distinct : (entries.map (·.1)).Nodup)
    (params : ModelParams Float) :
    AllStated (untagged entries) params.parts ↔ AllStated entries params.parts := by
  apply forall₂_congr
  intro part member
  have named : part.1 ∈ params.kind.fieldNames := by
    rw [ModelType.fieldNames, ← params.sorts_parts, List.map_map]
    exact List.mem_map_of_mem member
  unfold Stated
  rw [field?_untagged distinct named]

section Tagged

variable {kind : ModelType} (distinct : (entries.map (·.1)).Nodup)
  (readable : ∀ entry ∈ entries, entry.2.isReadable = true)

include distinct readable

theorem ModelParams.ofKind_untagged_eq_ok_iff {params : ModelParams Float} :
    ofKind dialect.aside kind (.record (untagged entries)) = .ok params ↔
      params.kind = kind ∧ AllStated entries params.parts := by
  rw [ofKind_eq_ok_iff (nodup_untagged distinct) (readable_untagged readable),
    params.allStated_untagged distinct]

/-- Once the kind is known, the rest of a record is read for it. -/
theorem ModelParams.ofDocument_of_hasKind (named : HasKind entries kind) :
    ofDocument dialect (.record entries) =
      ofKind dialect.aside kind (.record (untagged entries)) := by
  have read : ModelType.ofDocument dialect (.text kind.tag) = .ok kind := by
    cases kind <;> rfl
  have found : (Fields.named entries).get 0 "model_type" (ModelType.ofDocument dialect) =
      .done kind := (Fields.get_eq_done_iff distinct).mpr ⟨_, named, read⟩
  unfold ofDocument
  rw [isReadable_record.mpr readable]
  change ofEntries dialect entries = _
  unfold ofEntries
  rw [found]
  rfl

end Tagged

/-- Some part of a sort meets a condition. -/
def FieldSort.Some (met : Part → Prop) : FieldSort → Prop
  | amount => ∃ value, met (.amount value)
  | count => ∃ value, met (.count value)
  | policy => ∃ value, met (.policy value)

theorem FieldSort.some_iff {sort : FieldSort} {met : Part → Prop} :
    sort.Some met ↔ ∃ part : Part, part.sort = sort ∧ met part := by
  constructor
  · intro some
    cases sort with
    | amount | count | policy =>
        obtain ⟨value, meets⟩ := some
        exact ⟨_, rfl, meets⟩
  · rintro ⟨part, rfl, meets⟩
    cases part with
    | amount value | count value | policy value => exact ⟨value, meets⟩

/-- Fields with a value of their sorts, each. -/
def AllGiven (entries : List (String × Document)) (fields : List (String × FieldSort)) : Prop :=
  ∀ field ∈ fields, field.2.Some (Stated entries field.1)

theorem typed_iff_allGiven {kind : ModelType} :
    Typed entries kind ↔ AllGiven entries kind.fields := by
  apply forall₂_congr
  intro field _
  rw [FieldSort.some_iff]
  constructor
  · rintro ⟨document, found, part, sorted, states⟩
    exact ⟨part, sorted, document, found, states⟩
  · rintro ⟨part, sorted, document, found, states⟩
    exact ⟨document, found, part, sorted, states⟩

theorem SimpleParams.exists_of_allGiven (given : AllGiven entries ModelType.unitFields) :
    ∃ params : SimpleParams Float, AllStated entries params.parts := by
  obtain ⟨⟨maxRate, rate⟩, given⟩ := List.forall_mem_cons.mp given
  obtain ⟨⟨unitCost, cost⟩, given⟩ := List.forall_mem_cons.mp given
  obtain ⟨⟨baseLatency, latency⟩, given⟩ := List.forall_mem_cons.mp given
  obtain ⟨⟨policy, named⟩, _⟩ := List.forall_mem_cons.mp given
  use { maxRate, unitCost, baseLatency, policy }
  simp only [parts, allStated_cons]
  exact ⟨rate, cost, latency, named, List.forall_mem_nil _⟩

theorem ScalingRule.exists_of_allGiven (given : AllGiven entries ModelType.ruleFields) :
    ∃ rule : ScalingRule Float, AllStated entries rule.parts := by
  obtain ⟨⟨upPercent, up⟩, given⟩ := List.forall_mem_cons.mp given
  obtain ⟨⟨upDelay, upWait⟩, given⟩ := List.forall_mem_cons.mp given
  obtain ⟨⟨downPercent, down⟩, given⟩ := List.forall_mem_cons.mp given
  obtain ⟨⟨downDelay, downWait⟩, _⟩ := List.forall_mem_cons.mp given
  use { upPercent, upDelay, downPercent, downDelay }
  simp only [parts, allStated_cons]
  exact ⟨up, upWait, down, downWait, List.forall_mem_nil _⟩

theorem AutoscalingParams.exists_of_typed (typed : Typed entries .autoscaling) :
    ∃ params : AutoscalingParams Float,
      AllStated entries (("fixed_hourcost", .amount params.fixedCost) ::
        (params.rule.parts ++ params.base.parts)) := by
  obtain ⟨⟨fixedCost, cost⟩, given⟩ := List.forall_mem_cons.mp (typed_iff_allGiven.mp typed)
  obtain ⟨ruleGiven, baseGiven⟩ := List.forall_mem_append.mp given
  obtain ⟨rule, ruled⟩ := ScalingRule.exists_of_allGiven ruleGiven
  obtain ⟨base, based⟩ := SimpleParams.exists_of_allGiven baseGiven
  exact ⟨{ fixedCost, rule, base }, allStated_cons.mpr ⟨cost, allStated_append.mpr ⟨ruled, based⟩⟩⟩

theorem ModelParams.exists_of_typed {kind : ModelType} (typed : Typed entries kind) :
    ∃ params : ModelParams Float, params.kind = kind ∧ AllStated entries params.parts := by
  cases kind with
  | simple =>
      obtain ⟨params, stated⟩ := SimpleParams.exists_of_allGiven (typed_iff_allGiven.mp typed)
      exact ⟨.simple params, rfl, stated⟩
  | quickScaling =>
      obtain ⟨⟨fixedCost, cost⟩, baseGiven⟩ :=
        List.forall_mem_cons.mp (typed_iff_allGiven.mp typed)
      obtain ⟨base, based⟩ := SimpleParams.exists_of_allGiven baseGiven
      exact ⟨.quickScaling { fixedCost, base }, rfl, allStated_cons.mpr ⟨cost, based⟩⟩
  | autoscaling =>
      obtain ⟨params, stated⟩ := AutoscalingParams.exists_of_typed typed
      exact ⟨.autoscaling params, rfl, stated⟩
  | autoscalingFine =>
      obtain ⟨params, stated⟩ := AutoscalingParams.exists_of_typed typed
      exact ⟨.autoscalingFine params, rfl, stated⟩

/-- A record is typed for a kind exactly if it states the values of some parameters
of that kind. -/
theorem typed_iff {kind : ModelType} :
    Typed entries kind ↔
      ∃ params : ModelParams Float, params.kind = kind ∧ AllStated entries params.parts := by
  constructor
  · exact ModelParams.exists_of_typed
  · rintro ⟨params, rfl, stated⟩
    rw [typed_iff_allGiven, ← params.sorts_parts, AllGiven, List.forall_mem_map]
    intro part member
    exact FieldSort.some_iff.mpr ⟨part.2, rfl, stated part member⟩

end Kinds

section Relevant

variable {entries others : List (String × Document)} {dialect : Dialect} {names : List String}

theorem SimpleParams.reads_gather (known : ∀ field ∈ ModelType.unitFields, field.1 ∈ names) :
    Reads names (gather dialect) := by
  obtain ⟨rate, known⟩ := List.forall_mem_cons.mp known
  obtain ⟨cost, known⟩ := List.forall_mem_cons.mp known
  obtain ⟨latency, known⟩ := List.forall_mem_cons.mp known
  obtain ⟨policy, _⟩ := List.forall_mem_cons.mp known
  exact ((((Reads.get rate 0 _).map _).seq (.get cost 1 _)).seq (.get latency 2 _)).seq
    (.get policy 3 _)

theorem ScalingRule.reads_gather (known : ∀ field ∈ ModelType.ruleFields, field.1 ∈ names) :
    Reads names (gather dialect) := by
  obtain ⟨upPercent, known⟩ := List.forall_mem_cons.mp known
  obtain ⟨upDelay, known⟩ := List.forall_mem_cons.mp known
  obtain ⟨downPercent, known⟩ := List.forall_mem_cons.mp known
  obtain ⟨downDelay, _⟩ := List.forall_mem_cons.mp known
  exact ((((Reads.get upPercent 0 _).map _).seq (.get upDelay 1 _)).seq
    (.get downPercent 2 _)).seq (.get downDelay 3 _)

variable (ascending : Ascending entries) (also : Ascending others)
  (agree : ∀ name ∈ names, field? entries name = field? others name)

include ascending also agree

theorem SimpleParams.ofEntries_congr (known : ∀ field ∈ ModelType.unitFields, field.1 ∈ names) :
    ofEntries dialect entries = ofEntries dialect others :=
  (reads_gather known).result_congr ascending also agree

theorem QuickScalingParams.ofEntries_congr
    (known : ∀ field ∈ ModelType.quickScaling.fields, field.1 ∈ names) :
    ofEntries dialect entries = ofEntries dialect others := by
  obtain ⟨cost, unit⟩ := List.forall_mem_cons.mp known
  have costRead : Reads names fun fields => fields.get 0 "fixed_hourcost" dialect.readReal :=
    .get cost 0 _
  unfold ofEntries
  rw [costRead.result_congr ascending also agree,
    SimpleParams.ofEntries_congr ascending also agree unit]

theorem AutoscalingParams.ofEntries_congr
    (known : ∀ field ∈ ModelType.autoscaling.fields, field.1 ∈ names) :
    ofEntries dialect entries = ofEntries dialect others := by
  obtain ⟨cost, parts⟩ := List.forall_mem_cons.mp known
  obtain ⟨rule, unit⟩ := List.forall_mem_append.mp parts
  have ownRead : Reads names (gather dialect) :=
    ((Reads.get cost 0 _).map _).seq (ScalingRule.reads_gather rule)
  unfold ofEntries
  rw [ownRead.result_congr ascending also agree,
    SimpleParams.ofEntries_congr ascending also agree unit]

end Relevant

/-- Readable records that agree on the fields of a kind are read alike, the failure
included. -/
theorem ModelParams.ofKind_congr {entries others : List (String × Document)} {dialect : Dialect}
    {kind : ModelType} (ascending : Ascending entries) (also : Ascending others)
    (readable : ∀ entry ∈ entries, entry.2.isReadable = true)
    (alsoReadable : ∀ entry ∈ others, entry.2.isReadable = true)
    (agree : ∀ name ∈ kind.fieldNames, field? entries name = field? others name) :
    ofKind dialect kind (.record entries) = ofKind dialect kind (.record others) := by
  have known : ∀ field ∈ kind.fields, field.1 ∈ kind.fieldNames :=
    fun _ member => List.mem_map_of_mem member
  have autoscaled (named : ∀ field ∈ ModelType.autoscaling.fields, field.1 ∈ kind.fieldNames) :
      AutoscalingParams.ofDocument dialect (.record entries) =
        AutoscalingParams.ofDocument dialect (.record others) := by
    unfold AutoscalingParams.ofDocument
    rw [Shape.readNamed_record readable, Shape.readNamed_record alsoReadable]
    exact AutoscalingParams.ofEntries_congr ascending also agree named
  cases kind with
  | simple =>
      apply congrArg (Except.map simple)
      exact (SimpleParams.reads_gather known).result_congr ascending also agree
  | quickScaling =>
      apply congrArg (Except.map quickScaling)
      unfold QuickScalingParams.ofDocument
      rw [Shape.readNamed_record readable, Shape.readNamed_record alsoReadable]
      exact QuickScalingParams.ofEntries_congr ascending also agree known
  | autoscaling => exact congrArg (Except.map autoscaling) (autoscaled known)
  | autoscalingFine => exact congrArg (Except.map autoscalingFine) (autoscaled known)

end PipelineCapacity
