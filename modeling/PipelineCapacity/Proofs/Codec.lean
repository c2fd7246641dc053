import PipelineCapacity.Codec
import PipelineCapacity.Proofs.Pipeline.Steps
import PipelineCapacity.Proofs.Stored.Pipeline

/-!
Pipeline parameters encoded and decoded again. Any parameters have a text, valid
or not. The decoder takes from it the parameters it was written for, whichever
the style, and lets them pass exactly if they are valid; so whatever it lets
pass it would let pass again.
-/

set_option autoImplicit false

namespace PipelineCapacity

open Quantity (isFinite)

section Finite

variable {α : Type} [Quantity α] {name : String} {amount : α}

theorem finite_of_requirePositive (checked : requirePositive name amount = .ok ()) :
    isFinite amount = true :=
  (Bool.and_eq_true_iff.mp (requirePositive_eq_ok_iff.mp checked)).1

theorem finite_of_requireNonNegative (checked : requireNonNegative name amount = .ok ()) :
    isFinite amount = true := (requireNonNegative_eq_ok_iff.mp checked).1

theorem SimpleParams.finite_of_valid {params : SimpleParams α}
    (valid : params.validate = .ok ()) : ∀ amount ∈ params.amounts, isFinite amount = true := by
  obtain ⟨_, rate, valid⟩ := bind_eq_ok_iff.mp valid
  obtain ⟨_, cost, latency⟩ := bind_eq_ok_iff.mp valid
  simp only [amounts, List.forall_mem_cons]
  exact ⟨finite_of_requirePositive rate, finite_of_requireNonNegative cost,
    finite_of_requireNonNegative latency, List.forall_mem_nil _⟩

theorem AutoscalingParams.finite_of_valid {params : AutoscalingParams α}
    (valid : params.validate = .ok ()) :
    ∀ amount ∈ params.fixedCost :: (params.rule.amounts ++ params.base.amounts),
      isFinite amount = true := by
  obtain ⟨_, base, valid⟩ := bind_eq_ok_iff.mp valid
  obtain ⟨_, cost, valid⟩ := bind_eq_ok_iff.mp valid
  obtain ⟨_, upPercent, valid⟩ := bind_eq_ok_iff.mp valid
  obtain ⟨_, downPercent, _⟩ := bind_eq_ok_iff.mp valid
  simp only [ScalingRule.amounts, List.forall_mem_cons, List.forall_mem_append]
  exact ⟨finite_of_requireNonNegative cost, ⟨finite_of_requirePositive upPercent,
    finite_of_requireNonNegative downPercent, List.forall_mem_nil _⟩,
    SimpleParams.finite_of_valid base⟩

/-- Every amount of valid parameters is checked to be finite. -/
theorem ModelParams.finite_of_valid {params : ModelParams α}
    (valid : params.validate = .ok ()) : ∀ amount ∈ params.amounts, isFinite amount = true := by
  cases params with
  | simple params => exact SimpleParams.finite_of_valid valid
  | quickScaling params =>
      obtain ⟨_, base, cost⟩ := bind_eq_ok_iff.mp valid
      exact List.forall_mem_cons.mpr
        ⟨finite_of_requireNonNegative cost, SimpleParams.finite_of_valid base⟩
  | autoscaling params => exact AutoscalingParams.finite_of_valid valid
  | autoscalingFine params => exact AutoscalingParams.finite_of_valid valid

end Finite

namespace Codec

open Json

variable {params result : ModelParams Float}

theorem textField?_of_holds {entries fields : List (String × Document)}
    (holds : Holds entries fields) {name value : String} (member : (name, .text value) ∈ fields) :
    textField? entries name = some value := by
  unfold textField?
  rw [Document.field?_of_mem holds.distinct (holds.mem _ member)]

theorem policy_mem_toFields (params : ModelParams Float) :
    ("policy", params.base.policy.toDocument) ∈ params.toFields := by
  cases params <;>
    simp [ModelParams.toFields, ModelParams.base, SimpleParams.toFields,
      QuickScalingParams.toFields, AutoscalingParams.toFields]

/-- From its own sorted document. -/
theorem modelOfDocument_sorted_eq_ok_iff (counted : ∀ delay ∈ params.delays, delay ≤ maxDelay) :
    modelOfDocument params.toDocument.sorted = .ok result ↔
      params.validate = .ok () ∧ result = params := by
  obtain ⟨entries, sorted, holds, _⟩ := params.sorted_toDocument
  have kind : checkKind entries = .ok () := by
    unfold checkKind
    rw [textField?_of_holds holds List.mem_cons_self]
    cases params <;> rfl
  have policy : checkPolicy entries = .ok () := by
    unfold checkPolicy
    rw [textField?_of_holds holds (List.mem_cons_of_mem _ (policy_mem_toFields params))]
    unfold Policy.parse
    dsimp only
    rw [Policy.ofName?_name]
    rfl
  have reading (result : ModelParams Float) :
      ModelParams.ofDocument Dialect.json.aside params.toDocument.sorted = .ok result ↔
        params.Storable ∧ result = params := ModelParams.ofDocument_sorted_eq_ok_iff
  rw [sorted] at reading ⊢
  unfold modelOfDocument
  simp only [bind_eq_ok_iff, kind, policy, mapError_eq_ok_iff, refuse_eq_ok_iff, reading]
  constructor
  · rintro ⟨_, _, _, _, _, ⟨storable, rfl⟩, _, valid, same⟩
    cases same
    exact ⟨valid, rfl⟩
  · rintro ⟨valid, rfl⟩
    have storable : result.Storable := ⟨ModelParams.finite_of_valid valid, counted⟩
    exact ⟨(), trivial, (), trivial, _, ⟨storable, rfl⟩, _, valid, rfl⟩

theorem valid_of_decodeModel {text : String} (decoded : decodeModel text = .ok params) :
    params.validate = .ok () ∧ ∀ delay ∈ params.delays, delay ≤ maxDelay := by
  unfold decodeModel at decoded
  split at decoded
  · cases decoded
  · split at decoded
    · unfold modelOfDocument at decoded
      split at decoded
      · obtain ⟨_, _, decoded⟩ := bind_eq_ok_iff.mp decoded
        obtain ⟨_, _, decoded⟩ := bind_eq_ok_iff.mp decoded
        obtain ⟨_, read, decoded⟩ := bind_eq_ok_iff.mp decoded
        obtain ⟨_, valid, same⟩ := bind_eq_ok_iff.mp decoded
        cases same
        exact ⟨refuse_eq_ok_iff.mp valid,
          ModelParams.ofDocument_counted (mapError_eq_ok_iff.mp read)⟩
      · cases decoded
    · cases decoded

section RoundTrip

variable (counted : ∀ delay ∈ params.delays, delay ≤ maxDelay)
  (reads : ∀ amount ∈ params.amounts, amount.isFinite = true → ReadsBack amount)

include counted reads

theorem read?_encodeModel (style : Style) :
    read? (encodeModel style params).toList = some params.toDocument :=
  read?_write (ModelParams.legible_toDocument counted reads) style

theorem decodeModel_encodeModel_eq_ok_iff (style : Style) (result : ModelParams Float) :
    decodeModel (encodeModel style params) = .ok result ↔
      params.validate = .ok () ∧ result = params := by
  have readable : params.toDocument.isReadable = true :=
    Document.isReadable_record.mpr fun field member =>
      (params.fields_isLeaf field member).isReadable
  unfold decodeModel
  rw [read?_encodeModel counted reads style]
  dsimp only
  rw [if_pos readable]
  exact modelOfDocument_sorted_eq_ok_iff counted

end RoundTrip

/-- Parameters of any kind are encoded, valid or not, and their text reads as
their document. What the text decodes to are the same parameters if they are
valid, and a failure otherwise. Whatever a text decodes to is valid, makes a
pipeline with these parameters, and decodes from its own text again. Amounts
are those whose numerals read back; one that is not finite has no numeral. -/
theorem decodeModel_round_trip :
    (∀ (style : Style) (params : ModelParams Float),
      (∀ delay ∈ params.delays, delay ≤ maxDelay) →
      (∀ amount ∈ params.amounts, amount.isFinite = true → ReadsBack amount) →
        read? (encodeModel style params).toList = some params.toDocument ∧
        (decodeModel (encodeModel style params) = .ok params ↔ params.validate = .ok ()) ∧
        (params.validate ≠ .ok () →
          ∃ failure, decodeModel (encodeModel style params) = .error failure)) ∧
    ∀ (text : String) (params : ModelParams Float), decodeModel text = .ok params →
      params.validate = .ok () ∧
      (∃ pipeline, Pipeline.ofParams params = .ok pipeline ∧ pipeline.params = params) ∧
      ∀ style : Style,
        (∀ amount ∈ params.amounts, amount.isFinite = true → ReadsBack amount) →
          decodeModel (encodeModel style params) = .ok params := by
  constructor
  · intro style params counted reads
    have decoded := decodeModel_encodeModel_eq_ok_iff counted reads style
    refine ⟨read?_encodeModel counted reads style, ?_, fun invalid => ?_⟩
    · rw [decoded]
      exact and_iff_left rfl
    · cases found : decodeModel (encodeModel style params) with
      | ok result => exact absurd ((decoded result).mp found).1 invalid
      | error failure => exact ⟨failure, rfl⟩
  · intro text params decoded
    obtain ⟨valid, counted⟩ := valid_of_decodeModel decoded
    refine ⟨valid, ⟨params.fresh, Pipeline.ofParams_of_valid valid, Pipeline.fresh_params params⟩,
      fun style reads => ?_⟩
    exact (decodeModel_encodeModel_eq_ok_iff counted reads style params).mpr ⟨valid, rfl⟩

/-- A fine pipeline, all of whose amounts but one have a fraction. -/
def tuned : ModelParams Float :=
  .autoscalingFine
    { fixedCost := 1.1
      rule := { upPercent := 75, upDelay := 3, downPercent := 15.25, downDelay := 4 }
      base := { maxRate := 4321.5, unitCost := 0.37, baseLatency := 8.25, policy := .lifo } }

/-- Of no capacity, with a cost that is no number. -/
def spoilt : ModelParams Float :=
  .simple { maxRate := 0, unitCost := 0.0 / 0.0, baseLatency := 8.25, policy := .random }

theorem decodeModel_round_trip_tuned :
    decodeModel (encodeModel .pretty tuned) = .ok tuned ∧
      ∃ failure, decodeModel (encodeModel .compact spoilt) = .error failure := by
  have valid : tuned.validate = .ok () := rfl
  have refused : spoilt.validate = .error (.notPositive "maxrate_rph" 0) := rfl
  have invalid : spoilt.validate ≠ .ok () := by
    rw [refused]
    nofun
  constructor
  · refine (decodeModel_round_trip.1 .pretty tuned ?_ ?_).2.1.mpr valid
    · decide +kernel
    · decide +kernel
  · refine (decodeModel_round_trip.1 .compact spoilt ?_ ?_).2.2 invalid
    · decide +kernel
    · decide +kernel

end Codec

end PipelineCapacity
