import Mathlib.Data.List.Basic

/-!
# Transfer and revision lifecycles

The statuses of a program transfer and of an operator-edited program revision,
their stored strings, and the allowed transitions. A revision is promoted only
as a deliberate step from a draft.
-/

namespace ElectronixMes.Core

/-- Direction of a transfer relative to the machine. -/
inductive TransferDirection where
  | toMachine
  | fromMachine
  deriving DecidableEq, Repr

def TransferDirection.asStr : TransferDirection → String
  | toMachine => "to_machine"
  | fromMachine => "from_machine"

/-- Lifecycle of a transfer. -/
inductive TransferStatus where
  | scheduled
  | notified
  | fetched
  | completed
  | failed
  deriving DecidableEq, Repr

namespace TransferStatus

def parse : String → Option TransferStatus
  | "scheduled" => some scheduled
  | "notified" => some notified
  | "fetched" => some fetched
  | "completed" => some completed
  | "failed" => some failed
  | _ => none

def asStr : TransferStatus → String
  | scheduled => "scheduled"
  | notified => "notified"
  | fetched => "fetched"
  | completed => "completed"
  | failed => "failed"

def isTerminal : TransferStatus → Bool
  | completed => true
  | failed => true
  | _ => false

/-- A transfer can fail from any status that is not terminal. -/
def canTransition (s next : TransferStatus) : Bool :=
  if next = failed then !s.isTerminal
  else
    match s, next with
    | scheduled, notified => true
    | scheduled, fetched => true
    | scheduled, completed => true
    | notified, fetched => true
    | notified, completed => true
    | fetched, completed => true
    | _, _ => false

@[simp] theorem parse_asStr (s : TransferStatus) : parse s.asStr = some s := by
  cases s <;> rfl

theorem eq_asStr_of_parse {str : String} {s : TransferStatus} (h : parse str = some s) :
    str = s.asStr := by
  unfold parse at h
  split at h <;> cases h <;> rfl

/-- Nothing leaves a terminal status. -/
theorem canTransition_of_isTerminal {s : TransferStatus} (h : s.isTerminal = true)
    (t : TransferStatus) : canTransition s t = false := by
  cases s <;> cases t <;> first | rfl | contradiction

/-- From every other status a transfer may complete or fail. -/
theorem canTransition_terminal {s t : TransferStatus} (hs : s.isTerminal = false)
    (ht : t.isTerminal = true) : canTransition s t = true := by
  cases s <;> cases t <;> first | rfl | contradiction

end TransferStatus

/-- Lifecycle of a program revision. -/
inductive RevisionStatus where
  | draft
  | promoted
  | rejected
  deriving DecidableEq, Repr

namespace RevisionStatus

def parse : String → Option RevisionStatus
  | "draft" => some draft
  | "promoted" => some promoted
  | "rejected" => some rejected
  | _ => none

def asStr : RevisionStatus → String
  | draft => "draft"
  | promoted => "promoted"
  | rejected => "rejected"

def canTransition : RevisionStatus → RevisionStatus → Bool
  | draft, promoted => true
  | draft, rejected => true
  | _, _ => false

@[simp] theorem parse_asStr (s : RevisionStatus) : parse s.asStr = some s := by
  cases s <;> rfl

/-- A reviewed revision is final. -/
theorem canTransition_of_ne_draft {s : RevisionStatus} (h : s ≠ draft) (t : RevisionStatus) :
    canTransition s t = false := by
  cases s with
  | draft => exact absurd rfl h
  | promoted => rfl
  | rejected => rfl

/-- No transition leads back to a draft. -/
theorem canTransition_ne_draft {s t : RevisionStatus} (h : canTransition s t = true) :
    t ≠ draft := by
  rintro rfl
  cases s <;> cases h

end RevisionStatus

end ElectronixMes.Core
