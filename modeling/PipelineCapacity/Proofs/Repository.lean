import PipelineCapacity.Proofs.Codec
import PipelineCapacity.Proofs.Codec.Traffic
import PipelineCapacity.Proofs.Store
import PipelineCapacity.Proofs.Stored.Result
import PipelineCapacity.Repository

/-!
A repository after any number of saves. Whatever their order, and whatever their
names, each kind of load gives what was last saved under that kind and name, as
it was saved.
-/

set_option autoImplicit false

namespace PipelineCapacity

namespace EntryKind

theorem label_injective : Function.Injective label := by
  intro left right same
  cases left <;> cases right <;> first | rfl | simp [label] at same

/-- Labels do not hide where the name starts. -/
theorem label_plain (kind : EntryKind) : ':' ∉ kind.label.toList := by
  cases kind <;> decide

/-- The entry that was found, or that there is none of this kind and name. -/
def orMissing {β : Type} (kind : EntryKind) (name : String) : Option β → Except (Failure Float) β
  | some entry => .ok entry
  | none => .error (.store (kind.label ++ ":" ++ name) "no such entry")

end EntryKind

/-- Where an entry is kept. -/
abbrev Place := EntryKind × String

namespace Repository

variable {writes : List (Place × String)}

def ofSpace (space : String) (style : Json.Style) : Repository := ⟨.ofSpace space, style⟩

theorem load?_ofSpace (space : String) (style : Json.Style) (kind name : String) :
    (ofSpace space style).store.load? kind name = none := rfl

/-- Texts saved one after the other, each at its place. -/
def enterAll (repository : Repository) (writes : List (Place × String)) : Repository :=
  writes.foldl (fun repository write => repository.saveText write.1.1 write.1.2 write.2) repository

theorem enterAll_eq (repository : Repository) (writes : List (Place × String)) :
    repository.enterAll writes =
      { repository with
        store := repository.store.saveAll
          (writes.map (Prod.map (Prod.map EntryKind.label id) id)) } := by
  induction writes generalizing repository with
  | nil => rfl
  | cons write writes ih =>
      change (repository.saveText write.1.1 write.1.2 write.2).enterAll writes = _
      rw [ih]
      rfl

theorem enterAll_append (repository : Repository) (earlier later : List (Place × String)) :
    repository.enterAll (earlier ++ later) = (repository.enterAll earlier).enterAll later :=
  List.foldl_append

theorem label_plain_of_writes :
    ∀ write ∈ writes.map (Prod.map (Prod.map EntryKind.label id) id), ':' ∉ write.1.1.toList :=
  List.forall_mem_map.mpr fun write _ => write.1.1.label_plain

theorem loadText_eq (repository : Repository) (kind : EntryKind) (name : String) :
    repository.loadText kind name =
      kind.orMissing name (repository.store.load? kind.label name) := by
  unfold loadText
  cases repository.store.load? kind.label name <;> rfl

/-- What is kept at a place is what was saved there last, if anything was. -/
theorem loadText_enterAll (repository : Repository) (kind : EntryKind) (name : String) :
    (repository.enterAll writes).loadText kind name =
      kind.orMissing name
        ((latest? writes (kind, name)).or (repository.store.load? kind.label name)) := by
  have relabelled : latest? (writes.map (Prod.map (Prod.map EntryKind.label id) id))
      (Prod.map EntryKind.label id (kind, name)) = latest? writes (kind, name) :=
    latest?_rename fun write _ same => Function.Injective.prodMap EntryKind.label_injective
      Function.injective_id same
  rw [loadText_eq, enterAll_eq]
  dsimp only
  rw [Store.load?_saveAll label_plain_of_writes kind.label_plain name, ← relabelled]
  rfl

theorem loadWith_congr {β : Type} {repository other : Repository} {kind : EntryKind}
    {read : Document → Reading β} {name : String}
    (same : repository.loadText kind name = other.loadText kind name) :
    repository.loadWith kind read name = other.loadWith kind read name := by
  unfold loadWith
  rw [same]

theorem size_enterAll (space : String) (style : Json.Style) :
    ((ofSpace space style).enterAll writes).store.size = (writes.map (·.1)).toFinset.card := by
  have places : ((writes.map (Prod.map (Prod.map EntryKind.label id) id)).map (·.1)).toFinset =
      (writes.map (·.1)).toFinset.image (Prod.map EntryKind.label id) := by
    ext place
    simp
  rw [enterAll_eq]
  refine (Store.size_saveAll label_plain_of_writes).trans ?_
  rw [places, Finset.card_image_of_injective]
  exact Function.Injective.prodMap EntryKind.label_injective Function.injective_id

end Repository

/-- Anything that is saved. -/
inductive Save where
  | pipeline (name : String) (params : ModelParams Float)
  | traffic (model : TrafficModel Float)
  | forecast (name : String) (made : Forecast Float)
  | outcome (run : Outcome Float)

namespace Save

/-- Parameters are valid, tables filled and forecasts made; amounts are finite,
and counts fit the places they are given. -/
def Sound [MonthlyGrowth Float] : Save → Prop
  | pipeline _ params => params.validate = .ok () ∧ ∀ delay ∈ params.delays, delay ≤ maxDelay
  | traffic model => model.validate = .ok () ∧ model.monthly.Filled ∧ model.hourly.Filled
  | forecast _ made => made.Made ∧ ∀ amount ∈ made.amounts, amount.isFinite = true
  | outcome run => run.results.Storable ∧ run.summary.Storable

/-- The places that are written, in order. -/
def places : Save → List Place
  | pipeline name _ => [(.model, name)]
  | traffic model => [(.traffic, model.name)]
  | forecast name _ => [(.forecast, name)]
  | outcome run => [(.results, run.name), (.summary, run.name)]

/-- What is written, and where. -/
def writes (style : Json.Style) : Save → List (Place × String)
  | pipeline name params => [((.model, name), Codec.encodeModel style params)]
  | traffic model => [((.traffic, model.name), Codec.encodeTraffic style model)]
  | forecast name made => [((.forecast, name), Json.write .compact made.toDocument)]
  | outcome run =>
      [((.results, run.name), Json.write .compact run.results.toDocument),
        ((.summary, run.name), Json.write .compact run.summary.toDocument)]

theorem map_writes (style : Json.Style) (save : Save) :
    (save.writes style).map (·.1) = save.places := by
  cases save <;> rfl

def pipeline? : Save → Option (String × ModelParams Float)
  | pipeline name params => some (name, params)
  | _ => none

def traffic? : Save → Option (String × TrafficModel Float)
  | traffic model => some (model.name, model)
  | _ => none

def forecast? : Save → Option (String × Forecast Float)
  | forecast name made => some (name, made)
  | _ => none

def results? : Save → Option (String × ResultSeries Float)
  | outcome run => some (run.name, run.results)
  | _ => none

def summary? : Save → Option (String × Summary Float)
  | outcome run => some (run.name, run.summary)
  | _ => none

/-- What a save writes of one kind is the text of what it saves of that kind. -/
def Writes {β : Type} (style : Json.Style) (kind : EntryKind)
    (part? : Save → Option (String × β)) (encode : β → String) : Prop :=
  ∀ (save : Save) (name : String),
    latest? (save.writes style) (kind, name) = (latest? (part? save).toList name).map encode

variable {style : Json.Style}

theorem writes_model : Writes style .model pipeline? (Codec.encodeModel style) := by
  intro save name
  cases save <;> simp [writes, pipeline?, latest?_cons]

theorem writes_traffic : Writes style .traffic traffic? (Codec.encodeTraffic style) := by
  intro save name
  cases save <;> simp [writes, traffic?, latest?_cons]

theorem writes_forecast :
    Writes style .forecast forecast? fun made => Json.write .compact made.toDocument := by
  intro save name
  cases save <;> simp [writes, forecast?, latest?_cons]

theorem writes_results :
    Writes style .results results? fun results => Json.write .compact results.toDocument := by
  intro save name
  cases save <;> simp [writes, results?, latest?_cons]

theorem writes_summary :
    Writes style .summary summary? fun summary => Json.write .compact summary.toDocument := by
  intro save name
  cases save <;> simp [writes, summary?, latest?_cons]

end Save

namespace Repository

def apply (repository : Repository) : Save → Repository
  | .pipeline name params => repository.saveModel name params
  | .traffic model => repository.saveTraffic model
  | .forecast name made => repository.saveForecast name made
  | .outcome run => repository.saveOutcome run

/-- Saves one after the other. -/
def applyAll (repository : Repository) (saves : List Save) : Repository :=
  saves.foldl apply repository

theorem apply_eq (repository : Repository) (save : Save) :
    repository.apply save = repository.enterAll (save.writes repository.style) := by
  cases save <;> rfl

/-- Both texts of an outcome are there once it is saved. -/
theorem loadText_saveOutcome (repository : Repository) (run : Outcome Float) :
    (repository.saveOutcome run).loadText .results run.name =
        .ok (Json.write .compact run.results.toDocument) ∧
      (repository.saveOutcome run).loadText .summary run.name =
        .ok (Json.write .compact run.summary.toDocument) := by
  have saved : repository.saveOutcome run =
      repository.enterAll ((Save.outcome run).writes repository.style) :=
    repository.apply_eq (.outcome run)
  rw [saved, loadText_enterAll, loadText_enterAll]
  constructor <;> simp [Save.writes, latest?_cons, EntryKind.orMissing]

theorem applyAll_eq (repository : Repository) (saves : List Save) :
    repository.applyAll saves =
      repository.enterAll (saves.flatMap (Save.writes repository.style)) := by
  induction saves generalizing repository with
  | nil => rfl
  | cons save saves ih =>
      have style : (repository.apply save).style = repository.style := by cases save <;> rfl
      change (repository.apply save).applyAll saves = _
      rw [ih, style, List.flatMap_cons, enterAll_append, apply_eq]

variable {space : String} {style : Json.Style} {saves : List Save}

/-- Of one kind, what is loaded under a name was saved last under that name, if
its text is one that it can be read from. -/
theorem load_applyAll {β : Type} {kind : EntryKind} {part? : Save → Option (String × β)}
    {encode : β → String} {decode : String → Except (Failure Float) β}
    (written : Save.Writes style kind part? encode)
    (reads : ∀ save ∈ saves, ∀ name entry, part? save = some (name, entry) →
      decode (encode entry) = .ok entry) (name : String) :
    (((ofSpace space style).applyAll saves).loadText kind name >>= decode) =
      kind.orMissing name (latest? (saves.filterMap part?) name) := by
  have texts : latest? (saves.flatMap (Save.writes style)) (kind, name) =
      (latest? (saves.filterMap part?) name).map encode := by
    rw [List.filterMap_eq_flatMap_toList]
    exact latest?_flatMap (fun save => written save name) saves
  rw [applyAll_eq]
  change ((ofSpace space style).enterAll (saves.flatMap (Save.writes style))).loadText kind name
    >>= decode = _
  rw [loadText_enterAll, texts, load?_ofSpace, Option.or_none]
  cases found : latest? (saves.filterMap part?) name with
  | none => rfl
  | some entry =>
      obtain ⟨save, member, same⟩ := List.mem_filterMap.mp (mem_of_latest? found)
      exact reads save member name entry same

theorem size_applyAll :
    ((ofSpace space style).applyAll saves).store.size =
      (saves.flatMap Save.places).toFinset.card := by
  have places : (saves.flatMap (Save.writes style)).map (·.1) = saves.flatMap Save.places := by
    rw [List.map_flatMap]
    exact congrArg (saves.flatMap ·) (funext (Save.map_writes style))
  rw [applyAll_eq, ← places]
  exact size_enterAll space style

end Repository

section Reading

variable {style : Json.Style}

theorem ResultSeries.decode_write {results : ResultSeries Float} (storable : results.Storable) :
    Json.decode (ofDocument .json) (Json.write style results.toDocument) = .ok results :=
  Json.decode_write (legible_toDocument storable) (ofDocument_toDocument storable) style

theorem Summary.decode_write {summary : Summary Float} (storable : summary.Storable) :
    Json.decode (ofDocument .json) (Json.write style summary.toDocument) = .ok summary :=
  Json.decode_write (legible_toDocument storable) (ofDocument_toDocument storable) style

variable [MonthlyGrowth Float]
  (growing : ∀ rate : Float, isNonNegative rate = true →
    ¬MonthlyGrowth.monthlyGrowth rate < Quantity.zero)

include growing

theorem Forecast.Made.decode_write {forecast : Forecast Float} (made : forecast.Made)
    (finite : ∀ amount ∈ forecast.amounts, amount.isFinite = true) :
    Json.decode (ofDocument .json) (Json.write style forecast.toDocument) = .ok forecast := by
  have storable := made.storable finite
  exact Json.decode_write (legible_toDocument storable)
    (ofDocument_toDocument storable (made.ofRows_rows finite growing)) style

/-- After any saves from the empty store on, whatever their names, every kind of
load gives what was last saved under that kind and that name, and fails if there
is no such entry. There are as many entries as kinds and names saved under.
Growth is not negative. -/
theorem Repository.load_last_saved (space : String) (style : Json.Style) {saves : List Save}
    (sound : ∀ save ∈ saves, save.Sound) :
    let repository := (ofSpace space style).applyAll saves
    (∀ name, repository.loadModel name =
      EntryKind.model.orMissing name (latest? (saves.filterMap Save.pipeline?) name)) ∧
    (∀ name, repository.loadTraffic name =
      EntryKind.traffic.orMissing name (latest? (saves.filterMap Save.traffic?) name)) ∧
    (∀ name, repository.loadForecast name =
      EntryKind.forecast.orMissing name (latest? (saves.filterMap Save.forecast?) name)) ∧
    (∀ name, repository.loadResults name =
      EntryKind.results.orMissing name (latest? (saves.filterMap Save.results?) name)) ∧
    (∀ name, repository.loadSummary name =
      EntryKind.summary.orMissing name (latest? (saves.filterMap Save.summary?) name)) ∧
    repository.store.size = (saves.flatMap Save.places).toFinset.card := by
  refine ⟨load_applyAll Save.writes_model ?_, load_applyAll Save.writes_traffic ?_,
    load_applyAll Save.writes_forecast ?_, load_applyAll Save.writes_results ?_,
    load_applyAll Save.writes_summary ?_, size_applyAll⟩
  · intro save member name params same
    cases save <;> cases same
    obtain ⟨valid, counted⟩ := sound _ member
    have decoded := Codec.decodeModel_encodeModel_eq_ok_iff counted
      (fun _ _ => Json.readsBack_of_isFinite) style params
    exact decoded.mpr ⟨valid, rfl⟩
  · intro save member name model same
    cases save <;> cases same
    obtain ⟨valid, monthly, hourly⟩ := sound _ member
    exact Codec.decodeTraffic_encodeTraffic style valid monthly.sound hourly.sound
  · intro save member name made same
    cases save <;> cases same
    obtain ⟨made, finite⟩ := sound _ member
    exact mapError_eq_ok_iff.mpr (made.decode_write growing finite)
  · intro save member name results same
    cases save <;> cases same
    obtain ⟨storable, _⟩ := sound _ member
    exact mapError_eq_ok_iff.mpr (ResultSeries.decode_write storable)
  · intro save member name summary same
    cases save <;> cases same
    obtain ⟨_, storable⟩ := sound _ member
    exact mapError_eq_ok_iff.mpr (Summary.decode_write storable)

end Reading

namespace Repository

def newYear : Date := (Date.of? 2024 1 1).get rfl

/-- The first two hours of a year. -/
def firstHours : Forecast Float :=
  ⟨[⟨.ofDate newYear 0, 10.5, 10.5, 10.5⟩, ⟨.ofDate newYear 1, 0.25, 0.25, 0.25⟩]⟩

def quietHour : ResultRow Float :=
  { slot := .ofDate newYear 0
    incoming := 0
    throughput := 0
    backlog := 0
    latencyFifo := 8.25
    latencyLifo := 8.25
    costPerRecord := none
    cost := 1.1
    units := 1 }

/-- A run of one hour in which nothing came in. -/
def quietRun : Outcome Float :=
  { name := "twinmodel:a"
    model := Codec.tuned
    results := ⟨[quietHour]⟩
    summary :=
      { hours := 1, totalCost := 1.1, totalIncoming := 0, totalThroughput := 0
        meanLatency := 8.25, maxLatency := 8.25, meanBacklog := 0, maxBacklog := 0
        meanThroughput := 0, maxThroughput := 0, maxUnits := 1
        sla := { met := true, percentWithin := 100 } } }

def cheap : ModelParams Float :=
  .simple { maxRate := 100, unitCost := 0.01, baseLatency := 0, policy := .fifo }

/-- Names that look like kinds, and a pipeline that is replaced. -/
def ledger : List Save :=
  [.pipeline "a" Codec.tuned, .pipeline "twinmodel:a" Codec.tuned, .traffic Codec.oddlyNamed,
    .forecast "twinmodel:a" firstHours, .outcome quietRun, .pipeline "twinmodel:a" cheap]

theorem load_last_saved_ledger :
    let repository := (ofSpace "plantd:twinmodel" .pretty).applyAll ledger
    repository.loadModel "twinmodel:a" = .ok cheap ∧
      repository.loadModel "a" = .ok Codec.tuned ∧
      repository.loadForecast "twinmodel:a" = .ok firstHours ∧
      repository.loadForecast "a" =
        .error (.store "trafficmodel_predictions:a" "no such entry") ∧
      repository.loadSummary "twinmodel:a" = .ok quietRun.summary ∧
      repository.store.size = 6 := by
  -- Agrees with the twelfth root at the rate one.
  let growth : MonthlyGrowth Float := ⟨fun rate => rate⟩
  have growing (rate : Float) (positive : isNonNegative rate = true) :
      ¬MonthlyGrowth.monthlyGrowth rate < (Quantity.zero : Float) := by
    change ¬rate < Quantity.zero
    simpa using (Bool.and_eq_true_iff.mp positive).2
  have february : MonthlyCorrections.empty.insert ⟨2, 0.9⟩ = .ok Codec.oddlyNamed.monthly := rfl
  have nights : HourlyCorrections.empty.insert ⟨.sat, 23, 1.75⟩ = .ok Codec.oddlyNamed.hourly :=
    rfl
  have made : Forecast.ofVolumes newYear [10.5, 0.25] = .ok firstHours := rfl
  have slot : quietHour.slot.Storable := (Slot.real_ofDate newYear (Nat.zero_le 23)).storable
  have results : quietRun.results.Storable :=
    List.forall_mem_singleton.mpr ⟨slot, by decide, by decide +kernel⟩
  have summary : quietRun.summary.Storable := ⟨by decide, by decide, by decide +kernel⟩
  have sound : ∀ save ∈ ledger, save.Sound := by
    simp only [ledger, List.forall_mem_cons]
    exact ⟨⟨rfl, by decide +kernel⟩, ⟨rfl, by decide +kernel⟩,
      ⟨rfl, .insert .empty february, .insert .empty nights⟩, ⟨.ofVolumes made, by decide +kernel⟩,
      ⟨results, summary⟩, ⟨rfl, by decide +kernel⟩, List.forall_mem_nil _⟩
  obtain ⟨models, _, forecasts, _, summaries, size⟩ :=
    load_last_saved growing "plantd:twinmodel" .pretty sound
  exact ⟨models _, models _, forecasts _, forecasts _, summaries _, size⟩

end Repository

end PipelineCapacity
