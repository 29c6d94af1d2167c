import Mathlib.Data.List.Basic

/-!
# Work-order and operation lifecycles

The two status enumerations, their stored strings, and the allowed
transitions. A status column holds the string; every decision is made on the
parsed value.
-/

namespace ElectronixMes.Core

/-- Work-order lifecycle status. -/
inductive WoStatus where
  | draft
  | released
  | inProgress
  | completed
  | closed
  | cancelled
  deriving DecidableEq, Repr

namespace WoStatus

/-- The status of a stored string; any other string has none. -/
def parse : String → Option WoStatus
  | "draft" => some draft
  | "released" => some released
  | "in_progress" => some inProgress
  | "completed" => some completed
  | "closed" => some closed
  | "cancelled" => some cancelled
  | _ => none

/-- The string that is stored. -/
def asStr : WoStatus → String
  | draft => "draft"
  | released => "released"
  | inProgress => "in_progress"
  | completed => "completed"
  | closed => "closed"
  | cancelled => "cancelled"

/-- The allowed transitions. A status does not change to itself, and only a draft, a released
order and one in progress can be cancelled. -/
def canTransition : WoStatus → WoStatus → Bool
  | draft, released => true
  | draft, cancelled => true
  | released, inProgress => true
  | released, cancelled => true
  | inProgress, completed => true
  | inProgress, cancelled => true
  | completed, closed => true
  | _, _ => false

@[simp] theorem parse_asStr (s : WoStatus) : parse s.asStr = some s := by
  cases s <;> rfl

theorem asStr_injective : Function.Injective asStr := by
  intro s t h
  have hp := congrArg parse h
  rwa [parse_asStr, parse_asStr, Option.some.injEq] at hp

/-- No transition leads back to a draft. -/
theorem canTransition_ne_draft {s t : WoStatus} (h : canTransition s t = true) : t ≠ draft := by
  rintro rfl
  cases s <;> cases h

/-- No transition leaves a cancelled or closed order. -/
theorem canTransition_of_final {s : WoStatus} (h : s = cancelled ∨ s = closed) (t : WoStatus) :
    canTransition s t = false := by
  rcases h with rfl | rfl <;> rfl

end WoStatus

/-- Operation lifecycle status. -/
inductive OpStatus where
  | pending
  | inProgress
  | completed
  deriving DecidableEq, Repr

namespace OpStatus

/-- The status of a stored string. -/
def parse : String → Option OpStatus
  | "pending" => some pending
  | "in_progress" => some inProgress
  | "completed" => some completed
  | _ => none

/-- The string that is stored. -/
def asStr : OpStatus → String
  | pending => "pending"
  | inProgress => "in_progress"
  | completed => "completed"

/-- An operation is started and then completed. -/
def canTransition : OpStatus → OpStatus → Bool
  | pending, inProgress => true
  | inProgress, completed => true
  | _, _ => false

@[simp] theorem parse_asStr (s : OpStatus) : parse s.asStr = some s := by
  cases s <;> rfl

theorem canTransition_completed (t : OpStatus) : canTransition completed t = false := rfl

end OpStatus

end ElectronixMes.Core
