import PipelineCapacity.Proofs.Json.Numeral
import PipelineCapacity.Proofs.Stored.Config
import PipelineCapacity.Proofs.Stored.Pipeline

/-!
Reading back what was written, part by part. A record is read field by field
from its own fields; a list is read item by item; and once its parts are legible,
the whole of a document comes back from its text.
-/

set_option autoImplicit false

namespace PipelineCapacity

open Document

variable {β : Type} {dialect : Dialect} {entries fields : List (String × Document)}

/-- A field whose value can be read is found. -/
theorem Holds.get_done (holds : Holds entries fields) (name : String) {value : Document}
    {read : Document → Reading β} {result : β} {absence : Absence β} {index : Nat}
    (member : (name, value) ∈ fields) (reads : read value = .ok result) :
    (Fields.named entries).getOr absence index name read = .done result :=
  (Fields.getNamed_eq_done_iff holds.distinct (holds.mem _ member)).mpr reads

/-- A record is read from its own fields. -/
theorem Shape.read_own {shape : Shape} {build : Fields → Gathered β} {value : β}
    (distinct : (fields.map (·.1)).Nodup)
    (gathered : Holds fields fields → build (.named fields) = .done value) :
    shape.read dialect build (.record fields) = .ok value :=
  Gathered.result_eq_ok_iff.mpr (gathered ⟨distinct, fun _ member => member⟩)

namespace Dialect

variable (dialect : Dialect)

theorem readText_text (value : String) : dialect.readText (.text value) = .ok value := rfl

theorem readBool_bool (value : Bool) : dialect.readBool (.bool value) = .ok value := rfl

theorem readYear_of_mem {year : Int} (inside : -2147483648 ≤ year ∧ year ≤ 2147483647) :
    dialect.readYear (.integer year) = .ok year :=
  if_pos inside

theorem readCount_of_le {count : Nat} (small : count ≤ maxDelay) :
    dialect.readCount (ofNat count) = .ok count :=
  dialect.readCount_eq_ok_iff.mpr (.count small)

theorem readSize_of_le {count : Nat} (small : count ≤ maxWhole) :
    dialect.readSize (ofNat count) = .ok count := by
  unfold maxWhole at small
  unfold readSize readInteger ofNat
  dsimp only
  rw [if_pos (by omega)]
  rfl

theorem readReal_of_finite {amount : Float} (finite : amount.isFinite = true) :
    dialect.readReal (ofFloat amount) = .ok amount :=
  dialect.readReal_eq_ok_iff.mpr ((Part.amount amount).states_toDocument finite)

theorem readReal?_of_finite {amount : Option Float}
    (finite : ∀ value ∈ amount, value.isFinite = true) :
    dialect.readReal? ((amount.map ofFloat).getD .null) = .ok amount := by
  cases amount with
  | none => rfl
  | some value =>
      change dialect.readReal? (ofFloat value) = _
      unfold ofFloat
      rw [if_pos (finite value rfl)]
      rfl

theorem readList_map {read : Document → Reading β} {write : β → Document} {items : List β}
    (each : ∀ item ∈ items, read (write item) = .ok item) :
    dialect.readList read (.list (items.map write)) = .ok items := by
  change (items.map write).mapM read = .ok items
  induction items with
  | nil => rfl
  | cons item rest ih =>
      obtain ⟨first, others⟩ := List.forall_mem_cons.mp each
      rw [List.map_cons, List.mapM_cons, first, ih others]
      rfl

end Dialect

/-- The document of a legible text is what the text is decoded from. -/
theorem Json.decode_write {read : Document → Reading β} {document : Document} {value : β}
    (legible : Legible maxDepth document) (reads : read document = .ok value) (style : Style) :
    decode read (write style document) = .ok value := by
  unfold decode
  rw [read?_write legible style]
  dsimp only
  rw [reads]

theorem Json.Legible.real {depth : Nat} (amount : Float) :
    Legible depth (Document.ofFloat amount) := .ofFloat readsBack_of_isFinite

theorem Json.Legible.real? {depth : Nat} (amount : Option Float) :
    Legible depth ((amount.map Document.ofFloat).getD .null) := by
  cases amount with
  | none => exact .null
  | some value => exact .real value

theorem Json.Legible.count {depth count : Nat} (small : count ≤ maxDelay) :
    Legible depth (Document.ofNat count) := by
  refine .ofNat (small.trans ?_)
  decide

end PipelineCapacity
