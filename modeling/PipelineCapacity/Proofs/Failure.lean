import PipelineCapacity.Failure

/-!
Failures along a chain of steps, each of which may fail. A chain fails where its
first step does or later, and succeeds through all of them. The two checks on
amounts are steps of nearly every chain.
-/

set_option autoImplicit false

namespace PipelineCapacity

variable {ε β γ : Type} {first : Except ε β} {rest : β → Except ε γ}

theorem bind_eq_error_iff {failure : ε} :
    first >>= rest = .error failure ↔
      first = .error failure ∨ ∃ value, first = .ok value ∧ rest value = .error failure := by
  cases first with
  | error cause => simp [bind, Except.bind]
  | ok value => simp [bind, Except.bind]

theorem bind_eq_ok_iff {result : γ} :
    first >>= rest = .ok result ↔ ∃ value, first = .ok value ∧ rest value = .ok result := by
  cases first with
  | error cause => simp [bind, Except.bind]
  | ok value => simp [bind, Except.bind]

theorem map_eq_ok_iff {first : Except ε β} {build : β → γ} {result : γ} :
    first.map build = .ok result ↔ ∃ value, first = .ok value ∧ build value = result := by
  cases first with
  | error cause => simp [Except.map]
  | ok value => simp [Except.map]

theorem mapError_eq_ok_iff {δ : Type} {first : Except ε β} {wrap : ε → δ} {value : β} :
    first.mapError wrap = .ok value ↔ first = .ok value := by
  cases first with
  | error cause => exact iff_of_false nofun nofun
  | ok found =>
      constructor
      · intro same
        cases same
        rfl
      · intro same
        cases same
        rfl

theorem toOption_eq_some_iff {first : Except ε β} {value : β} :
    first.toOption = some value ↔ first = .ok value := by
  cases first <;> simp [Except.toOption]

/-- What is accepted under a condition alone is refused without it. -/
theorem exists_eq_error {accepted : Prop} {value : β}
    (accepts : ∀ result, first = .ok result ↔ accepted ∧ result = value) (refused : ¬accepted) :
    ∃ cause, first = .error cause := by
  cases first with
  | ok result => exact absurd ((accepts result).mp rfl).1 refused
  | error cause => exact ⟨cause, rfl⟩

/-- What every step of a chain keeps, the chain keeps. -/
theorem foldlM_keeps {σ : Type} {step : σ → β → Except ε σ} {kept : σ → Prop}
    (keeps : ∀ state item next, kept state → step state item = .ok next → kept next)
    {items : List β} {state final : σ} (start : kept state)
    (passed : items.foldlM step state = .ok final) : kept final := by
  induction items generalizing state with
  | nil =>
      cases passed
      exact start
  | cons item rest ih =>
      rw [List.foldlM_cons, bind_eq_ok_iff] at passed
      obtain ⟨next, stepped, passed⟩ := passed
      exact ih (keeps state item next start stepped) passed

/-- A chain of steps that each accept or refuse an item accepts them all. -/
theorem foldlM_eq_ok_iff {σ : Type} {step : σ → β → Except ε σ} {next : σ → β → σ}
    {accepted : β → Prop}
    (accepts : ∀ state item result,
      step state item = .ok result ↔ accepted item ∧ result = next state item)
    {items : List β} {state final : σ} :
    items.foldlM step state = .ok final ↔
      (∀ item ∈ items, accepted item) ∧ final = items.foldl next state := by
  induction items generalizing state with
  | nil =>
      change Except.ok state = Except.ok final ↔ _
      simp [eq_comm]
  | cons item rest ih =>
      simp only [List.foldlM_cons, bind_eq_ok_iff, accepts, ih, List.forall_mem_cons,
        List.foldl_cons]
      constructor
      · rintro ⟨_, ⟨first, rfl⟩, others, same⟩
        exact ⟨⟨first, others⟩, same⟩
      · rintro ⟨⟨first, others⟩, same⟩
        exact ⟨_, ⟨first, rfl⟩, others, same⟩

variable {α : Type} {checked : Except (InvalidParameter α) β}

theorem refuse_eq_ok_iff {value : β} : refuse checked = .ok value ↔ checked = .ok value :=
  mapError_eq_ok_iff

theorem refuse_not_cancelled {failure : Failure α} (failed : refuse checked = .error failure) :
    failure.isCancelled = false := by
  cases checked with
  | error cause =>
      cases failed
      rfl
  | ok accepted => cases failed

section Checks

open Quantity (isFinite zero)

variable [Quantity α] {name : String} {amount : α}

theorem requireNonNegative_eq_ok_iff :
    requireNonNegative name amount = .ok () ↔ isFinite amount = true ∧ ¬amount < zero := by
  unfold requireNonNegative isNonNegative
  cases isFinite amount <;> by_cases negative : amount < zero <;> simp [negative]

theorem requireNonNegative_of_not
    (unacceptable : ¬(isFinite amount = true ∧ ¬amount < zero)) :
    requireNonNegative name amount = .error (.notNonNegative name amount) := by
  cases checked : requireNonNegative name amount with
  | ok =>
      exact absurd (requireNonNegative_eq_ok_iff.mp checked) unacceptable
  | error cause =>
      unfold requireNonNegative at checked
      split at checked
      · cases checked
      · exact checked.symm

theorem requirePositive_eq_ok_iff :
    requirePositive name amount = .ok () ↔ isPositive amount = true := by
  unfold requirePositive
  cases isPositive amount <;> simp

end Checks

end PipelineCapacity
