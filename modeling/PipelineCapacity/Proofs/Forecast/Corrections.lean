import PipelineCapacity.Forecast.Corrections
import PipelineCapacity.Proofs.Exact
import PipelineCapacity.Proofs.Failure

/-!
Correction tables as they can be made. Every way to fill a table checks the
factor, so no factor a table has is negative, and one is the factor of a key
without an entry.
-/

set_option autoImplicit false

namespace PipelineCapacity

open Quantity (zero)

variable {α : Type} [Quantity α]

namespace MonthlyCorrections

/-- Tables made by any of the operations that fill them. -/
inductive Filled : MonthlyCorrections α → Prop
  | empty : Filled .empty
  | insert {table next : MonthlyCorrections α} {entry : MonthFactor α} (filled : Filled table)
      (accepted : table.insert entry = .ok next) : Filled next
  | ofList {table : MonthlyCorrections α} {entries : List (MonthFactor α)}
      (accepted : ofList entries = .ok table) : Filled table

theorem insert_positive {table next : MonthlyCorrections α} {entry : MonthFactor α}
    (positive : table.factors.All fun factor => isPositive factor = true)
    (accepted : table.insert entry = .ok next) :
    next.factors.All fun factor => isPositive factor = true := by
  unfold insert at accepted
  split at accepted
  · cases accepted
  · obtain ⟨_, checked, inserted⟩ := bind_eq_ok_iff.mp accepted
    cases inserted
    exact positive.insert entry.month (requirePositive_eq_ok_iff.mp checked)

theorem Filled.positive {table : MonthlyCorrections α} (filled : table.Filled) :
    table.factors.All fun factor => isPositive factor = true := by
  induction filled with
  | empty => exact Table.all_empty
  | insert _ accepted ih => exact insert_positive ih accepted
  | ofList accepted =>
      exact foldlM_keeps (fun _ _ _ => insert_positive) Table.all_empty accepted

theorem Filled.factor_not_neg [SignRule α] {table : MonthlyCorrections α}
    (filled : table.Filled) (month : Nat) : ¬table.factor month < zero := by
  have all : table.factors.All fun factor => ¬factor < zero :=
    fun entry member => not_neg_of_isPositive (filled.positive entry member)
  exact all.getD_find? month SignRule.one_not_neg

end MonthlyCorrections

namespace HourlyCorrections

/-- Tables made by any of the operations that fill them. -/
inductive Filled : HourlyCorrections α → Prop
  | empty : Filled .empty
  | insert {table next : HourlyCorrections α} {entry : HourFactor α} (filled : Filled table)
      (accepted : table.insert entry = .ok next) : Filled next
  | insertEveryDay {table next : HourlyCorrections α} {hour : Nat} {factor : α}
      (filled : Filled table) (accepted : table.insertEveryDay hour factor = .ok next) :
      Filled next
  | ofList {table : HourlyCorrections α} {entries : List (HourFactor α)}
      (accepted : ofList entries = .ok table) : Filled table

theorem insert_positive {table next : HourlyCorrections α} {entry : HourFactor α}
    (positive : table.factors.All fun factor => isPositive factor = true)
    (accepted : table.insert entry = .ok next) :
    next.factors.All fun factor => isPositive factor = true := by
  unfold insert at accepted
  split at accepted
  · cases accepted
  · obtain ⟨_, checked, inserted⟩ := bind_eq_ok_iff.mp accepted
    cases inserted
    exact positive.insert _ (requirePositive_eq_ok_iff.mp checked)

theorem Filled.positive {table : HourlyCorrections α} (filled : table.Filled) :
    table.factors.All fun factor => isPositive factor = true := by
  induction filled with
  | empty => exact Table.all_empty
  | insert _ accepted ih => exact insert_positive ih accepted
  | insertEveryDay _ accepted ih => exact foldlM_keeps (fun _ _ _ => insert_positive) ih accepted
  | ofList accepted =>
      exact foldlM_keeps (fun _ _ _ => insert_positive) Table.all_empty accepted

theorem Filled.factor_not_neg [SignRule α] {table : HourlyCorrections α}
    (filled : table.Filled) (weekday : Weekday) (hour : Nat) :
    ¬table.factor weekday hour < zero := by
  have all : table.factors.All fun factor => ¬factor < zero :=
    fun entry member => not_neg_of_isPositive (filled.positive entry member)
  exact all.getD_find? ⟨weekday, hour⟩ SignRule.one_not_neg

end HourlyCorrections

end PipelineCapacity
