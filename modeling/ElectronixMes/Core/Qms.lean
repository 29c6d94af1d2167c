import ElectronixMes.Serde.Json

/-!
# Inspection and nonconformance rules

A measurement is evaluated against optional inclusive limits. A disposition of a
nonconformance either releases its holds, so that the material can move again, or keeps
them.
-/

namespace ElectronixMes.Core

open Serde

inductive InspectionOutcome where
  | pass
  | fail
  deriving DecidableEq, Repr

def InspectionOutcome.asStr : InspectionOutcome → String
  | pass => "pass"
  | fail => "fail"

/-- Evaluate a measurement. A missing limit is not enforced. -/
def evaluate (value : Decimal) (lower upper : Option Decimal) : InspectionOutcome :=
  if lower.any (value < ·) then .fail
  else if upper.any (· < value) then .fail
  else .pass

/-- The disposition applied to a nonconformance. -/
inductive Disposition where
  | rework
  | scrap
  | useAsIs
  | return
  deriving DecidableEq, Repr

namespace Disposition

def parse : String → Option Disposition
  | "rework" => some rework
  | "scrap" => some scrap
  | "use_as_is" => some useAsIs
  | "return" => some «return»
  | _ => none

def asStr : Disposition → String
  | rework => "rework"
  | scrap => "scrap"
  | useAsIs => "use_as_is"
  | «return» => "return"

/-- Scrap and return keep the hold in place. -/
def releasesHold : Disposition → Bool
  | rework => true
  | useAsIs => true
  | _ => false

end Disposition

end ElectronixMes.Core
