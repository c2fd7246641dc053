import PipelineCapacity.Proofs.Json.Document
import PipelineCapacity.Proofs.Stored.Typing

/-!
Pipeline parameters read back from their documents. Wherever the fields of some
parameters stand among others, reading finds these parameters or, when an amount
has no numeral, nothing; the order of the fields does not matter, nor do the
fields of no concern.
-/

set_option autoImplicit false

namespace PipelineCapacity

open Document

section Parts

variable {α : Type}

def SimpleParams.amounts (params : SimpleParams α) : List α :=
  [params.maxRate, params.unitCost, params.baseLatency]

def ScalingRule.amounts (rule : ScalingRule α) : List α := [rule.upPercent, rule.downPercent]

def ScalingRule.delays (rule : ScalingRule α) : List Nat := [rule.upDelay, rule.downDelay]

namespace ModelParams

/-- All amounts of the parameters. -/
def amounts : ModelParams α → List α
  | simple params => params.amounts
  | quickScaling params => params.fixedCost :: params.base.amounts
  | autoscaling params | autoscalingFine params =>
      params.fixedCost :: (params.rule.amounts ++ params.base.amounts)

def delays : ModelParams α → List Nat
  | simple _ | quickScaling _ => []
  | autoscaling params | autoscalingFine params => params.rule.delays

end ModelParams

end Parts

theorem Policy.states_toDocument_iff {policy other : Policy} :
    policy.toDocument.States (.policy other) ↔ other = policy := by
  have read : ofDocument Dialect.json.aside policy.toDocument = .ok policy := by
    cases policy <;> rfl
  rw [← ofDocument_eq_ok_iff Dialect.json, read]
  simp [eq_comm]

namespace Part

/-- A part as it is written. -/
def toDocument : Part → Document
  | amount value => ofFloat value
  | count value => ofNat value
  | policy value => value.toDocument

/-- An amount has a numeral, a count is one of 32 binary places. -/
def Writable : Part → Prop
  | amount value => value.isFinite = true
  | count value => value ≤ maxDelay
  | policy _ => True

theorem isLeaf_toDocument (part : Part) : part.toDocument.IsLeaf := by
  cases part with
  | amount value => exact isLeaf_ofFloat value
  | count value => exact isLeaf_ofNat value
  | policy value => exact isLeaf_text value.name

theorem states_toDocument (part : Part) (writable : part.Writable) :
    part.toDocument.States part := by
  cases part with
  | amount value =>
      change (ofFloat value).States _
      unfold ofFloat
      rw [if_pos (show value.isFinite = true from writable)]
      exact .number value
  | count value => exact .count writable
  | policy value => exact .name value

/-- What a part is written as states this part and, of its sort, no other one. -/
theorem states_toDocument_iff {part other : Part} (alike : other.sort = part.sort) :
    part.toDocument.States other ↔ part.Writable ∧ other = part := by
  constructor
  · intro states
    cases part with
    | amount value =>
        change (ofFloat value).States other at states
        unfold ofFloat at states
        split at states
        · rename_i finite
          cases states
          exact ⟨finite, rfl⟩
        · cases states
    | count value =>
        change (integer value).States other at states
        cases states with
        | whole => cases alike
        | count small => exact ⟨small, rfl⟩
    | policy value =>
        cases other with
        | policy other => exact ⟨trivial, congrArg policy (Policy.states_toDocument_iff.mp states)⟩
        | _ => cases alike
  · rintro ⟨writable, rfl⟩
    exact other.states_toDocument writable

end Part

/-- Entries with different names, some fields among them. -/
structure Holds (entries fields : List (String × Document)) : Prop where
  distinct : (entries.map (·.1)).Nodup
  mem : ∀ field ∈ fields, field ∈ entries

namespace Holds

variable {entries fields : List (String × Document)} (holds : Holds entries fields)

include holds

theorem field?_eq {name : String} {document : Document} (member : (name, document) ∈ fields) :
    field? entries name = some document :=
  field?_of_mem holds.distinct (holds.mem _ member)

theorem sub {others : List (String × Document)} (sub : ∀ field ∈ others, field ∈ fields) :
    Holds entries others :=
  ⟨holds.distinct, fun field member => holds.mem field (sub field member)⟩

end Holds

/-- Sorting a record of values without parts loses none of them. -/
theorem holds_sortedFields {fields : List (String × Document)}
    (distinct : (fields.map (·.1)).Nodup) (leaves : ∀ field ∈ fields, field.2.IsLeaf) :
    Holds (sortedFields fields []) fields where
  distinct := (ascending_sortedFields fields).nodup
  mem := by
    intro (name, value) member
    rw [mem_iff_field? (ascending_sortedFields fields).nodup, field?_sortedFields,
      field?_of_mem distinct member, Option.map_some, (leaves _ member).sorted]

variable {dialect : Dialect} {entries : List (String × Document)}

/-- Among other entries, written parts state themselves, as far as they can be
written, and no other parts of these names and sorts. -/
theorem allStated_iff_of_holds {parts others : List (String × Part)}
    (holds : Holds entries (parts.map (Prod.map id Part.toDocument)))
    (alike : others.map (Prod.map id Part.sort) = parts.map (Prod.map id Part.sort)) :
    AllStated entries others ↔ (∀ part ∈ parts, part.2.Writable) ∧ others = parts := by
  -- Both lists have the same names and sorts, so they are taken apart together.
  induction parts generalizing others with
  | nil =>
      rw [List.map_eq_nil_iff.mp alike]
      exact iff_of_true (List.forall_mem_nil _) ⟨List.forall_mem_nil _, rfl⟩
  | cons part parts ih =>
      cases others with
      | nil => cases alike
      | cons other others =>
          obtain ⟨same, alike⟩ := List.cons.inj alike
          obtain ⟨name, sort⟩ := Prod.mk.inj same
          have rest := ih (holds.sub fun _ member => List.mem_cons_of_mem _ member) alike
          have sameName : other.1 = part.1 := name
          have found : field? entries other.1 = some part.2.toDocument := by
            rw [sameName]
            exact holds.field?_eq List.mem_cons_self
          have first : Stated entries other.1 other.2 ↔ part.2.Writable ∧ other.2 = part.2 := by
            unfold Stated
            rw [← Part.states_toDocument_iff sort, found]
            simp
          rw [allStated_cons, first, rest, List.forall_mem_cons, List.cons_eq_cons, Prod.ext_iff]
          constructor
          · rintro ⟨⟨writable, value⟩, others, same⟩
            exact ⟨⟨writable, others⟩, ⟨sameName, value⟩, same⟩
          · rintro ⟨⟨writable, others⟩, ⟨_, value⟩, same⟩
            exact ⟨⟨writable, value⟩, others, same⟩

theorem SimpleParams.writable_iff (params : SimpleParams Float) :
    (∀ part ∈ params.parts, part.2.Writable) ↔
      ∀ amount ∈ params.amounts, amount.isFinite = true := by
  simp [parts, amounts, Part.Writable]

theorem ScalingRule.writable_iff (rule : ScalingRule Float) :
    (∀ part ∈ rule.parts, part.2.Writable) ↔
      (∀ amount ∈ rule.amounts, amount.isFinite = true) ∧
        ∀ delay ∈ rule.delays, delay ≤ maxDelay := by
  simp only [parts, amounts, delays, Part.Writable, List.forall_mem_cons]
  constructor
  · rintro ⟨upPercent, upDelay, downPercent, downDelay, _⟩
    exact ⟨⟨upPercent, downPercent, List.forall_mem_nil _⟩, upDelay, downDelay,
      List.forall_mem_nil _⟩
  · rintro ⟨⟨upPercent, downPercent, _⟩, upDelay, downDelay, _⟩
    exact ⟨upPercent, upDelay, downPercent, downDelay, List.forall_mem_nil _⟩

theorem SimpleParams.eq_of_parts {params other : SimpleParams Float}
    (same : other.parts = params.parts) : other = params := by
  cases params
  cases other
  simpa [parts] using same

theorem ScalingRule.eq_of_parts {rule other : ScalingRule Float}
    (same : other.parts = rule.parts) : other = rule := by
  cases rule
  cases other
  simpa [parts] using same

theorem QuickScalingParams.eq_of_parts {params other : QuickScalingParams Float}
    (same : ("fixed_hourcost", Part.amount other.fixedCost) :: other.base.parts =
      ("fixed_hourcost", Part.amount params.fixedCost) :: params.base.parts) :
    other = params := by
  obtain ⟨first, rest⟩ := List.cons.inj same
  have cost : other.fixedCost = params.fixedCost := Part.amount.inj (Prod.mk.inj first).2
  have base := SimpleParams.eq_of_parts rest
  cases params
  cases other
  rw [QuickScalingParams.mk.injEq]
  exact ⟨cost, base⟩

theorem AutoscalingParams.eq_of_parts {params other : AutoscalingParams Float}
    (same : ("fixed_hourcost", Part.amount other.fixedCost) ::
        (other.rule.parts ++ other.base.parts) =
      ("fixed_hourcost", Part.amount params.fixedCost) ::
        (params.rule.parts ++ params.base.parts)) : other = params := by
  obtain ⟨first, rest⟩ := List.cons.inj same
  obtain ⟨ruleSame, baseSame⟩ := List.append_inj rest rfl
  have cost : other.fixedCost = params.fixedCost := Part.amount.inj (Prod.mk.inj first).2
  have rule := ScalingRule.eq_of_parts ruleSame
  have base := SimpleParams.eq_of_parts baseSame
  cases params
  cases other
  rw [AutoscalingParams.mk.injEq]
  exact ⟨cost, rule, base⟩

theorem ScalingRule.gather_counted {fields : Fields} {rule : ScalingRule Float}
    (gathered : gather dialect fields = .done rule) :
    ∀ delay ∈ rule.delays, delay ≤ maxDelay := by
  obtain ⟨_, _, others, downDelay, rfl⟩ := Gathered.seq_eq_done_iff.mp gathered
  obtain ⟨_, _, first, _, rfl⟩ := Gathered.seq_eq_done_iff.mp others
  obtain ⟨_, _, begun, upDelay, rfl⟩ := Gathered.seq_eq_done_iff.mp first
  obtain ⟨_, _, rfl⟩ := Gathered.map_eq_done_iff.mp begun
  obtain ⟨_, up⟩ := Fields.get_eq_done upDelay
  obtain ⟨_, down⟩ := Fields.get_eq_done downDelay
  exact List.forall_mem_cons.mpr
    ⟨dialect.readCount_le up, List.forall_mem_singleton.mpr (dialect.readCount_le down)⟩

theorem AutoscalingParams.ofDocument_counted {document : Document}
    {params : AutoscalingParams Float} (found : ofDocument dialect document = .ok params) :
    ∀ delay ∈ params.rule.delays, delay ≤ maxDelay := by
  obtain ⟨entries, read⟩ := Shape.readNamed_eq_ok found
  obtain ⟨⟨_, rule⟩, gathered, read⟩ := bind_eq_ok_iff.mp read
  obtain ⟨_, _, same⟩ := bind_eq_ok_iff.mp read
  cases same
  obtain ⟨_, _, begun, ruleFound, same⟩ :=
    Gathered.seq_eq_done_iff.mp (Gathered.result_eq_ok_iff.mp gathered)
  obtain ⟨_, _, rfl⟩ := Gathered.map_eq_done_iff.mp begun
  cases same
  exact ScalingRule.gather_counted ruleFound

namespace ModelParams

/-- Every amount has a numeral, every delay is a count of 32 binary places. -/
structure Storable (params : ModelParams Float) : Prop where
  finite : ∀ amount ∈ params.amounts, amount.isFinite = true
  counted : ∀ delay ∈ params.delays, delay ≤ maxDelay

theorem toFields_eq (params : ModelParams Float) :
    params.toFields = params.parts.map (Prod.map id Part.toDocument) := by
  cases params <;> rfl

/-- Parameters are storable exactly if all their parts can be written. -/
theorem storable_iff {params : ModelParams Float} :
    params.Storable ↔ ∀ part ∈ params.parts, part.2.Writable := by
  have both : params.Storable ↔ (∀ amount ∈ params.amounts, amount.isFinite = true) ∧
      ∀ delay ∈ params.delays, delay ≤ maxDelay :=
    ⟨fun storable => ⟨storable.finite, storable.counted⟩, fun ⟨finite, counted⟩ =>
      ⟨finite, counted⟩⟩
  rw [both]
  cases params with
  | simple params =>
      exact (and_iff_left (List.forall_mem_nil _)).trans params.writable_iff.symm
  | quickScaling params =>
      simp only [amounts, delays, parts, List.forall_mem_cons, params.base.writable_iff]
      exact and_iff_left (List.forall_mem_nil _)
  | autoscaling params | autoscalingFine params =>
      simp only [amounts, delays, parts, List.forall_mem_cons, List.forall_mem_append,
        params.rule.writable_iff, params.base.writable_iff]
      constructor
      · rintro ⟨⟨cost, rule, base⟩, counted⟩
        exact ⟨cost, ⟨rule, counted⟩, base⟩
      · rintro ⟨cost, ⟨rule, counted⟩, base⟩
        exact ⟨⟨cost, rule, base⟩, counted⟩

theorem eq_of_parts {params other : ModelParams Float} (kind : other.kind = params.kind)
    (parts : other.parts = params.parts) : other = params := by
  cases params with
  | simple params =>
      cases other with
      | simple other => exact congrArg simple (SimpleParams.eq_of_parts parts)
      | _ => cases kind
  | quickScaling params =>
      cases other with
      | quickScaling other =>
          exact congrArg quickScaling (QuickScalingParams.eq_of_parts parts)
      | _ => cases kind
  | autoscaling params =>
      cases other with
      | autoscaling other => exact congrArg autoscaling (AutoscalingParams.eq_of_parts parts)
      | _ => cases kind
  | autoscalingFine params =>
      cases other with
      | autoscalingFine other =>
          exact congrArg autoscalingFine (AutoscalingParams.eq_of_parts parts)
      | _ => cases kind

theorem allStated_iff {params result : ModelParams Float} (holds : Holds entries params.toFields) :
    result.kind = params.kind ∧ AllStated entries result.parts ↔
      params.Storable ∧ result = params := by
  rw [toFields_eq] at holds
  rw [storable_iff]
  constructor
  · rintro ⟨kind, stated⟩
    have alike := result.sorts_parts
    rw [kind, ← params.sorts_parts] at alike
    obtain ⟨writable, same⟩ := (allStated_iff_of_holds holds alike).mp stated
    exact ⟨writable, eq_of_parts kind same⟩
  · rintro ⟨writable, rfl⟩
    exact ⟨rfl, (allStated_iff_of_holds holds rfl).mpr ⟨writable, rfl⟩⟩

/-- The fields of the document, the kind first. -/
def fields (params : ModelParams Float) : List (String × Document) :=
  ("model_type", params.kind.toDocument) :: params.toFields

theorem toFields_isLeaf (params : ModelParams Float) :
    ∀ field ∈ params.toFields, field.2.IsLeaf := by
  rw [toFields_eq]
  exact List.forall_mem_map.mpr fun part _ => part.2.isLeaf_toDocument

theorem fields_isLeaf (params : ModelParams Float) : ∀ field ∈ params.fields, field.2.IsLeaf :=
  List.forall_mem_cons.mpr ⟨trivial, params.toFields_isLeaf⟩

theorem fields_distinct (params : ModelParams Float) : (params.fields.map (·.1)).Nodup := by
  cases params <;>
    simp [fields, toFields, SimpleParams.toFields, QuickScalingParams.toFields,
      AutoscalingParams.toFields, ScalingRule.toFields]

theorem sorted_toDocument (params : ModelParams Float) :
    ∃ entries, params.toDocument.sorted = .record entries ∧ Holds entries params.fields ∧
      ∀ entry ∈ entries, entry.2.isReadable = true := by
  have readable : (record params.fields).isReadable = true :=
    isReadable_record.mpr fun field member => (params.fields_isLeaf field member).isReadable
  refine ⟨sortedFields params.fields [], rfl, ?_, ?_⟩
  · exact holds_sortedFields params.fields_distinct params.fields_isLeaf
  · exact isReadable_record.mp (isReadable_sorted _ readable)

/-- Reading a document with the fields of some parameters finds these parameters,
if there are numerals for all of them, and nothing otherwise. -/
theorem ofDocument_eq_ok_iff {params result : ModelParams Float}
    (holds : Holds entries params.fields)
    (readable : ∀ entry ∈ entries, entry.2.isReadable = true) :
    ofDocument dialect (.record entries) = .ok result ↔ params.Storable ∧ result = params := by
  have named : HasKind entries params.kind := holds.field?_eq List.mem_cons_self
  rw [ofDocument_of_hasKind holds.distinct readable named,
    ofKind_untagged_eq_ok_iff holds.distinct readable]
  exact allStated_iff (holds.sub fun _ member => List.mem_cons_of_mem _ member)

theorem ofDocument_sorted_eq_ok_iff {params result : ModelParams Float} :
    ofDocument dialect params.toDocument.sorted = .ok result ↔
      params.Storable ∧ result = params := by
  obtain ⟨entries, sorted, holds, readable⟩ := params.sorted_toDocument
  rw [sorted]
  exact ofDocument_eq_ok_iff holds readable

theorem ofDocument_toDocument {params : ModelParams Float} (storable : params.Storable) :
    ofDocument dialect params.toDocument = .ok params := by
  have holds : Holds params.fields params.fields := ⟨params.fields_distinct, fun _ member => member⟩
  exact (ofDocument_eq_ok_iff holds fun field member =>
    (params.fields_isLeaf field member).isReadable).mpr ⟨storable, rfl⟩

theorem ofKind_counted {kind : ModelType} {document : Document} {params : ModelParams Float}
    (found : ofKind dialect kind document = .ok params) :
    ∀ delay ∈ params.delays, delay ≤ maxDelay := by
  cases kind with
  | simple =>
      obtain ⟨_, _, rfl⟩ := map_eq_ok_iff.mp found
      exact List.forall_mem_nil _
  | quickScaling =>
      obtain ⟨_, _, rfl⟩ := map_eq_ok_iff.mp found
      exact List.forall_mem_nil _
  | autoscaling =>
      obtain ⟨_, read, rfl⟩ := map_eq_ok_iff.mp found
      exact AutoscalingParams.ofDocument_counted read
  | autoscalingFine =>
      obtain ⟨_, read, rfl⟩ := map_eq_ok_iff.mp found
      exact AutoscalingParams.ofDocument_counted read

theorem ofEntries_counted {params : ModelParams Float}
    (found : ofEntries dialect entries = .ok params) :
    ∀ delay ∈ params.delays, delay ≤ maxDelay := by
  obtain ⟨_, _, read⟩ := bind_eq_ok_iff.mp found
  exact ofKind_counted read

/-- However parameters were written, their delays are counts of 32 binary places. -/
theorem ofDocument_counted {document : Document} {params : ModelParams Float}
    (found : ofDocument dialect document = .ok params) :
    ∀ delay ∈ params.delays, delay ≤ maxDelay := by
  unfold ofDocument at found
  split at found
  · cases found
  · split at found
    · exact ofEntries_counted found
    · exact ofEntries_counted found
    · cases found
    · cases found
    · obtain ⟨_, _, read⟩ := bind_eq_ok_iff.mp found
      exact ofKind_counted read
    · obtain ⟨_, _, read⟩ := bind_eq_ok_iff.mp found
      exact ofKind_counted read
    · cases found

end ModelParams

section Legible

variable {depth : Nat}

theorem SimpleParams.legible_toFields {params : SimpleParams Float}
    (reads : ∀ amount ∈ params.amounts, amount.isFinite = true → Json.ReadsBack amount) :
    ∀ field ∈ params.toFields, Json.Legible depth field.2 := by
  simp only [amounts, List.forall_mem_cons] at reads
  simp only [toFields, List.forall_mem_cons]
  exact ⟨.ofFloat reads.1, .ofFloat reads.2.1, .ofFloat reads.2.2.1, .text _,
    List.forall_mem_nil _⟩

theorem ScalingRule.legible_toFields {rule : ScalingRule Float}
    (reads : ∀ amount ∈ rule.amounts, amount.isFinite = true → Json.ReadsBack amount)
    (counted : ∀ delay ∈ rule.delays, delay ≤ maxDelay) :
    ∀ field ∈ rule.toFields, Json.Legible depth field.2 := by
  have small {count : Nat} (inside : count ≤ maxDelay) : count ≤ 18446744073709551615 :=
    inside.trans (by decide)
  simp only [amounts, delays, List.forall_mem_cons] at reads counted
  simp only [toFields, List.forall_mem_cons]
  exact ⟨.ofFloat reads.1, .ofNat (small counted.1), .ofFloat reads.2.1,
    .ofNat (small counted.2.1), List.forall_mem_nil _⟩

theorem AutoscalingParams.legible_toFields {params : AutoscalingParams Float}
    (reads : ∀ amount ∈ params.fixedCost :: (params.rule.amounts ++ params.base.amounts),
      amount.isFinite = true → Json.ReadsBack amount)
    (counted : ∀ delay ∈ params.rule.delays, delay ≤ maxDelay) :
    ∀ field ∈ params.toFields, Json.Legible depth field.2 := by
  obtain ⟨cost, others⟩ := List.forall_mem_cons.mp reads
  obtain ⟨rule, base⟩ := List.forall_mem_append.mp others
  exact List.forall_mem_cons.mpr ⟨.ofFloat cost, List.forall_mem_append.mpr
    ⟨ScalingRule.legible_toFields rule counted, SimpleParams.legible_toFields base⟩⟩

theorem ModelParams.legible_toDocument {params : ModelParams Float}
    (counted : ∀ delay ∈ params.delays, delay ≤ maxDelay)
    (reads : ∀ amount ∈ params.amounts, amount.isFinite = true → Json.ReadsBack amount) :
    Json.Legible (depth + 1) params.toDocument := by
  refine .record (List.forall_mem_cons.mpr ⟨.text _, ?_⟩)
  cases params with
  | simple params => exact SimpleParams.legible_toFields reads
  | quickScaling params =>
      obtain ⟨cost, others⟩ := List.forall_mem_cons.mp reads
      exact List.forall_mem_cons.mpr ⟨.ofFloat cost, SimpleParams.legible_toFields others⟩
  | autoscaling params => exact AutoscalingParams.legible_toFields reads counted
  | autoscalingFine params => exact AutoscalingParams.legible_toFields reads counted

end Legible

end PipelineCapacity
