import PipelineCapacity.Document.Record
import PipelineCapacity.Proofs.Failure

/-!
What a record that could be read says about its fields. Every part that went
into the value was read from a document of its own, or stands for a field that
may be missing.
-/

set_option autoImplicit false

namespace PipelineCapacity

variable {β γ : Type}

namespace Gathered

theorem map_eq_done_iff {f : β → γ} {gathered : Gathered β} {value : γ} :
    f <$> gathered = .done value ↔ ∃ part, gathered = .done part ∧ f part = value := by
  cases gathered with
  | done part =>
      change done (f part) = done value ↔ _
      simp
  | failed place cause =>
      change failed place cause = done value ↔ _
      simp

theorem seq_eq_done_iff {f : Gathered (β → γ)} {gathered : Gathered β} {value : γ} :
    f <*> gathered = .done value ↔
      ∃ build part, f = .done build ∧ gathered = .done part ∧ build part = value := by
  change apply f gathered = done value ↔ _
  cases f with
  | done build =>
      cases gathered with
      | done part => simp [apply]
      | failed place cause => simp [apply]
  | failed left leftCause =>
      cases gathered with
      | done part => simp [apply]
      | failed place cause =>
          change (if place < left then failed place cause else failed left leftCause) = _ ↔ _
          split <;> simp

theorem result_eq_ok_iff {gathered : Gathered β} {value : β} :
    gathered.result = .ok value ↔ gathered = .done value := by
  cases gathered <;> simp [result]

theorem ofReading_eq_done_iff {place : Nat} {reading : Reading β} {value : β} :
    ofReading place reading = .done value ↔ reading = .ok value := by
  cases reading <;> simp [ofReading]

end Gathered

/-- The value that stands for a missing field, if one does. -/
def Absence.value? : Absence β → Option β
  | .refused => none
  | .unnamed value | .allowed value => some value

namespace Fields

variable {read : Document → Reading β} {absence : Absence β} {value : β}

theorem getOr_eq_done {fields : Fields} {index : Nat} {name : String}
    (found : fields.getOr absence index name read = .done value) :
    (∃ document, read document = .ok value) ∨ absence.value? = some value := by
  unfold getOr at found
  cases fields with
  | named entries =>
      dsimp only at found
      unfold getNamed at found
      split at found
      · split at found
        · cases found
        · cases found
          exact .inr rfl
        · cases found
          exact .inr rfl
      · exact .inl ⟨_, Gathered.ofReading_eq_done_iff.mp found⟩
      · split at found <;> cases found
  | listed shape items =>
      dsimp only at found
      unfold getListed at found
      split at found
      · exact .inl ⟨_, Gathered.ofReading_eq_done_iff.mp found⟩
      · split at found
        · cases found
          exact .inr rfl
        · cases found

theorem get_eq_done {fields : Fields} {index : Nat} {name : String}
    (found : fields.get index name read = .done value) :
    ∃ document, read document = .ok value := by
  rcases getOr_eq_done found with present | absent
  · exact present
  · cases absent

/-- Where a field that may be missing is read in two steps, the first step has a
result of its own. -/
theorem getOr_first_step {fields : Fields} {index : Nat} {name : String} {missing : β} {start : γ}
    {first : Document → Reading γ} {made : γ → β → Prop}
    (steps : ∀ document value, read document = .ok value →
      ∃ part, first document = .ok part ∧ made part value)
    (startMakes : made start missing)
    (found : fields.getOr (.allowed missing) index name read = .done value) :
    ∃ part, fields.getOr (.allowed start) index name first = .done part ∧ made part value := by
  unfold getOr at found ⊢
  cases fields with
  | named entries =>
      dsimp only at found ⊢
      unfold getNamed at found ⊢
      split at found
      · cases found
        exact ⟨start, rfl, startMakes⟩
      · obtain ⟨part, read, makes⟩ := steps _ _ (Gathered.ofReading_eq_done_iff.mp found)
        exact ⟨part, Gathered.ofReading_eq_done_iff.mpr read, makes⟩
      · split at found <;> cases found
  | listed shape items =>
      dsimp only at found ⊢
      unfold getListed at found ⊢
      split at found
      · obtain ⟨part, read, makes⟩ := steps _ _ (Gathered.ofReading_eq_done_iff.mp found)
        exact ⟨part, Gathered.ofReading_eq_done_iff.mpr read, makes⟩
      · cases found
        exact ⟨start, rfl, startMakes⟩

end Fields

namespace Shape

private theorem listed_eq_ok_iff {gathered : Gathered β} {surplus? : Option Mismatch} {value : β} :
    (match gathered.result with
      | .error cause => .error cause
      | .ok value =>
          match surplus? with
          | some cause => .error cause
          | none => .ok value) = (.ok value : Reading β) ↔
      gathered = .done value ∧ surplus? = none := by
  cases gathered with
  | done found => cases surplus? <;> simp [Gathered.result]
  | failed place cause => simp [Gathered.result]

/-- A document that a record was read from has fields, out of which any other
record is read that they make. -/
theorem exists_fields_of_read {shape : Shape} {dialect : Dialect} {build : Fields → Gathered β}
    {document : Document} {value : β} (found : shape.read dialect build document = .ok value) :
    ∃ fields, build fields = .done value ∧
      ∀ {γ : Type} {other : Fields → Gathered γ} {result : γ}, other fields = .done result →
        shape.read dialect other document = .ok result := by
  unfold read at found ⊢
  split at found
  · exact ⟨_, Gathered.result_eq_ok_iff.mp found, Gathered.result_eq_ok_iff.mpr⟩
  · exact ⟨_, Gathered.result_eq_ok_iff.mp found, Gathered.result_eq_ok_iff.mpr⟩
  · obtain ⟨gathered, exhausted⟩ := listed_eq_ok_iff.mp found
    exact ⟨_, gathered, fun other => listed_eq_ok_iff.mpr ⟨other, exhausted⟩⟩
  · obtain ⟨gathered, exhausted⟩ := listed_eq_ok_iff.mp found
    exact ⟨_, gathered, fun other => listed_eq_ok_iff.mpr ⟨other, exhausted⟩⟩
  · cases found

theorem read_eq_ok {shape : Shape} {dialect : Dialect} {build : Fields → Gathered β}
    {document : Document} {value : β} (found : shape.read dialect build document = .ok value) :
    ∃ fields, build fields = .done value := by
  obtain ⟨fields, gathered, _⟩ := exists_fields_of_read found
  exact ⟨fields, gathered⟩

theorem readNamed_eq_ok {shape : Shape} {dialect : Dialect}
    {build : List (String × Document) → Reading β} {document : Document} {value : β}
    (found : shape.readNamed dialect build document = .ok value) :
    ∃ entries, build entries = .ok value := by
  unfold readNamed at found
  split at found
  · cases found
  · split at found
    · exact ⟨_, found⟩
    · exact ⟨_, found⟩
    · cases found

end Shape

end PipelineCapacity
