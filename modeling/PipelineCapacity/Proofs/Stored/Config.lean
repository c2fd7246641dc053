import PipelineCapacity.ConfigText
import PipelineCapacity.Proofs.Document.Record
import PipelineCapacity.Proofs.Forecast.Corrections

/-!
Configurations read from texts. Whatever the dialect, a document is read into a
configuration whose correction tables were filled entry by entry, and what
comes back has been validated.
-/

set_option autoImplicit false

namespace PipelineCapacity

theorem Json.decode_eq_ok {β : Type} {read : Document → Except Mismatch β} {text : String}
    {value : β} (decoded : decode read text = .ok value) :
    ∃ document, read? text.toList = some document ∧ read document = .ok value := by
  unfold decode at decoded
  split at decoded
  · cases decoded
  · rename_i document found
    split at decoded
    · rename_i accepted
      cases decoded
      exact ⟨document, found, accepted⟩
    · split at decoded <;> cases decoded

theorem Toml.decode_eq_ok {β : Type} {read : Document → Except Mismatch β} {text : String}
    {value : β} (decoded : decode read text = .ok value) :
    ∃ document, read? text.toList = some document ∧ read document = .ok value := by
  unfold decode at decoded
  split at decoded
  · cases decoded
  · rename_i document found
    exact ⟨document, found, mapError_eq_ok_iff.mp decoded⟩

variable {dialect : Dialect} {document : Document}

theorem MonthlyCorrections.ofDocument_filled {table : MonthlyCorrections Float}
    (found : ofDocument dialect document = .ok table) : table.Filled := by
  obtain ⟨_, _, listed⟩ := bind_eq_ok_iff.mp found
  exact .ofList (mapError_eq_ok_iff.mp listed)

theorem HourlyCorrections.ofDocument_filled {table : HourlyCorrections Float}
    (found : ofDocument dialect document = .ok table) : table.Filled := by
  obtain ⟨_, _, listed⟩ := bind_eq_ok_iff.mp found
  exact .ofList (mapError_eq_ok_iff.mp listed)

theorem TrafficModel.ofDocument_filled {model : TrafficModel Float}
    (found : ofDocument dialect document = .ok model) :
    model.monthly.Filled ∧ model.hourly.Filled := by
  obtain ⟨fields, gathered⟩ := Shape.read_eq_ok found
  obtain ⟨_, hourly, others, hourlyFound, rfl⟩ := Gathered.seq_eq_done_iff.mp gathered
  obtain ⟨_, monthly, plain, monthlyFound, rfl⟩ := Gathered.seq_eq_done_iff.mp others
  obtain ⟨_, _, based, _, rfl⟩ := Gathered.seq_eq_done_iff.mp plain
  obtain ⟨_, _, named, _, rfl⟩ := Gathered.seq_eq_done_iff.mp based
  obtain ⟨_, _, rfl⟩ := Gathered.map_eq_done_iff.mp named
  constructor
  · rcases Fields.getOr_eq_done monthlyFound with ⟨_, read⟩ | absent
    · exact MonthlyCorrections.ofDocument_filled read
    · cases absent
      exact .empty
  · rcases Fields.getOr_eq_done hourlyFound with ⟨_, read⟩ | absent
    · exact HourlyCorrections.ofDocument_filled read
    · cases absent
      exact .empty

namespace Config

theorem ofDocument_filled {config : Config Float}
    (found : ofDocument dialect document = .ok config) :
    config.traffic.monthly.Filled ∧ config.traffic.hourly.Filled := by
  obtain ⟨fields, gathered⟩ := Shape.read_eq_ok found
  obtain ⟨_, _, unjudged, _, rfl⟩ := Gathered.seq_eq_done_iff.mp gathered
  obtain ⟨_, _, unmodelled, _, rfl⟩ := Gathered.seq_eq_done_iff.mp unjudged
  obtain ⟨_, traffic, ranged, trafficFound, rfl⟩ := Gathered.seq_eq_done_iff.mp unmodelled
  obtain ⟨_, _, begun, _, rfl⟩ := Gathered.seq_eq_done_iff.mp ranged
  obtain ⟨_, _, named, _, rfl⟩ := Gathered.seq_eq_done_iff.mp begun
  obtain ⟨_, _, rfl⟩ := Gathered.map_eq_done_iff.mp named
  obtain ⟨_, read⟩ := Fields.get_eq_done trafficFound
  exact TrafficModel.ofDocument_filled read

theorem validated_eq_ok_iff {α : Type} [Quantity α] {config result : Config α} :
    config.validated = .ok result ↔ config.validate = .ok () ∧ result = config := by
  unfold validated
  rw [bind_eq_ok_iff]
  constructor
  · rintro ⟨_, valid, same⟩
    cases same
    exact ⟨valid, rfl⟩
  · rintro ⟨valid, rfl⟩
    exact ⟨(), valid, rfl⟩

theorem ofJson_valid {text : String} {config : Config Float} (read : ofJson text = .ok config) :
    config.validate = .ok () ∧ config.traffic.monthly.Filled ∧ config.traffic.hourly.Filled := by
  obtain ⟨_, decoded, checked⟩ := bind_eq_ok_iff.mp read
  obtain ⟨valid, rfl⟩ := validated_eq_ok_iff.mp checked
  obtain ⟨_, _, found⟩ := Json.decode_eq_ok (mapError_eq_ok_iff.mp decoded)
  exact ⟨valid, ofDocument_filled found⟩

theorem ofToml_valid {text : String} {config : Config Float} (read : ofToml text = .ok config) :
    config.validate = .ok () ∧ config.traffic.monthly.Filled ∧ config.traffic.hourly.Filled := by
  obtain ⟨_, decoded, checked⟩ := bind_eq_ok_iff.mp read
  obtain ⟨valid, rfl⟩ := validated_eq_ok_iff.mp checked
  obtain ⟨_, _, found⟩ := Toml.decode_eq_ok (mapError_eq_ok_iff.mp decoded)
  exact ⟨valid, ofDocument_filled found⟩

end Config

namespace Draft

variable {α : Type} [Quantity α]

omit [Quantity α] in
theorem require_eq_ok_iff {β : Type} {part : Option β} {fault : ConfigFault} {value : β} :
    (require part fault : Except (Failure α) β) = .ok value ↔ part = some value := by
  cases part <;> simp [require]

/-- A draft is built into a valid configuration of its own parts, or not at all. -/
theorem build_valid {draft : Draft α} {config : Config α} (built : draft.build = .ok config) :
    config.validate = .ok () ∧ draft.range = some (config.first, config.last) ∧
      draft.traffic = some config.traffic ∧ draft.model = some config.model ∧
      draft.sla = config.sla := by
  obtain ⟨_, range, built⟩ := bind_eq_ok_iff.mp built
  obtain ⟨_, traffic, built⟩ := bind_eq_ok_iff.mp built
  obtain ⟨_, model, built⟩ := bind_eq_ok_iff.mp built
  obtain ⟨valid, rfl⟩ := Config.validated_eq_ok_iff.mp built
  exact ⟨valid, require_eq_ok_iff.mp range, require_eq_ok_iff.mp traffic,
    require_eq_ok_iff.mp model, rfl⟩

end Draft

end PipelineCapacity
