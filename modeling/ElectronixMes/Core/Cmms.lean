import Mathlib.Data.List.Basic
import Mathlib.Algebra.Order.Ring.Rat

/-!
# Maintenance and procurement lifecycles (crates/mes-core/src/cmms.rs)

When preventive maintenance is due. The kinds and statuses of a maintenance order and of a
procurement request, their stored strings and the allowed transitions. A maintenance order
advances one step at a time.
-/

namespace ElectronixMes.Core

/-- How a schedule is triggered: by wall-clock days, or by hours of running. -/
inductive PmTrigger where
  | calendar
  | usageHours
  deriving DecidableEq, Repr

namespace PmTrigger

def parse : String → Option PmTrigger
  | "calendar" => some calendar
  | "usage_hours" => some usageHours
  | _ => none

def asStr : PmTrigger → String
  | calendar => "calendar"
  | usageHours => "usage_hours"

end PmTrigger

/-- A calendar schedule is due once its time is reached. -/
def calendarIsDue (nextDue now : Int) : Bool := nextDue ≤ now

/-- The run-hours at the last service and the interval, as decimals are added. -/
def usageNextDue (add : ℚ → ℚ → ℚ) (lastDoneUsageH intervalHours : ℚ) : ℚ :=
  add lastDoneUsageH intervalHours

/-- A usage schedule is due once the run-hours reach its marker. -/
def usageIsDue (nextDueUsageH currentUsageH : ℚ) : Bool := nextDueUsageH ≤ currentUsageH

/-- Category of a maintenance work order. -/
inductive MaintenanceType where
  | pm
  | corrective
  | breakdown
  deriving DecidableEq, Repr

namespace MaintenanceType

def parse : String → Option MaintenanceType
  | "PM" => some pm
  | "Corrective" => some corrective
  | "Breakdown" => some breakdown
  | _ => none

def asStr : MaintenanceType → String
  | pm => "PM"
  | corrective => "Corrective"
  | breakdown => "Breakdown"

end MaintenanceType

/-- Lifecycle of a maintenance work order; a closed order is the maintenance history. -/
inductive MaintenanceStatus where
  | requested
  | scheduled
  | inProgress
  | completed
  | verified
  deriving DecidableEq, Repr

namespace MaintenanceStatus

def parse : String → Option MaintenanceStatus
  | "requested" => some requested
  | "scheduled" => some scheduled
  | "in_progress" => some inProgress
  | "completed" => some completed
  | "verified" => some verified
  | _ => none

def asStr : MaintenanceStatus → String
  | requested => "requested"
  | scheduled => "scheduled"
  | inProgress => "in_progress"
  | completed => "completed"
  | verified => "verified"

/-- The lifecycle advances one step at a time and never moves backwards. -/
def canTransition : MaintenanceStatus → MaintenanceStatus → Bool
  | requested, scheduled => true
  | scheduled, inProgress => true
  | inProgress, completed => true
  | completed, verified => true
  | _, _ => false

@[simp] theorem parse_asStr (s : MaintenanceStatus) : parse s.asStr = some s := by
  cases s <;> rfl

theorem asStr_injective : Function.Injective asStr := by
  intro s t h
  have hparse := congrArg parse h
  rwa [parse_asStr, parse_asStr, Option.some.injEq] at hparse

theorem eq_asStr_of_parse {str : String} {s : MaintenanceStatus} (h : parse str = some s) :
    str = s.asStr := by
  unfold parse at h
  split at h <;> cases h <;> rfl

/-- How many steps lead to a status. -/
def rank : MaintenanceStatus → ℕ
  | requested => 0
  | scheduled => 1
  | inProgress => 2
  | completed => 3
  | verified => 4

theorem rank_injective : Function.Injective rank := by
  intro s t h
  cases s <;> cases t <;> first | rfl | exact absurd h (by decide)

/-- The statuses in the order of the lifecycle. -/
def lifecycle : List MaintenanceStatus := [requested, scheduled, inProgress, completed, verified]

theorem rank_of_canTransition {s t : MaintenanceStatus} (h : canTransition s t = true) :
    t.rank = s.rank + 1 := by
  cases s <;> cases t <;> first | rfl | exact absurd h (by decide)

/-- The rest of the lifecycle from a status starts with it and goes on after a step. -/
theorem drop_lifecycle {s t : MaintenanceStatus} (h : canTransition s t = true) :
    lifecycle.drop s.rank = s :: lifecycle.drop t.rank := by
  cases s <;> cases t <;> first | rfl | exact absurd h (by decide)

theorem singleton_prefix_drop (s : MaintenanceStatus) : [s] <+: lifecycle.drop s.rank := by
  cases s <;> exact ⟨_, rfl⟩

end MaintenanceStatus

/-- Lifecycle of a procurement request: the order itself stays with the ERP. -/
inductive ProcurementStatus where
  | requested
  | sentToErp
  | fulfilled
  deriving DecidableEq, Repr

namespace ProcurementStatus

def parse : String → Option ProcurementStatus
  | "requested" => some requested
  | "sent_to_erp" => some sentToErp
  | "fulfilled" => some fulfilled
  | _ => none

def asStr : ProcurementStatus → String
  | requested => "requested"
  | sentToErp => "sent_to_erp"
  | fulfilled => "fulfilled"

def canTransition : ProcurementStatus → ProcurementStatus → Bool
  | requested, sentToErp => true
  | sentToErp, fulfilled => true
  | _, _ => false

end ProcurementStatus

/-- Why a procurement request was raised. -/
inductive ProcurementReason where
  /-- Stock fell to or below the spare's reorder point. -/
  | reorderPoint
  /-- Raised by hand. -/
  | manual
  deriving DecidableEq, Repr

def ProcurementReason.asStr : ProcurementReason → String
  | reorderPoint => "reorder_point"
  | manual => "manual"

end ElectronixMes.Core
