import ElectronixMes.Arithmetic.Rounding
import ElectronixMes.Db.RepoCmms

/-!
# Preventive maintenance (crates/mes-db/src/repo_cmms.rs)

A schedule by run-hours starts from the hours the work center has run and is due an interval
later. The run-hours are a sum over the running intervals, the length of each divided by
3600 on its own.

## Implementation notes

Sums of numerics are exact, and so are comparisons. The places that a quotient is rounded to
and the arithmetic of calendar days are the server's; a decimal has some twenty-eight digits,
so that reading a numeric and adding two decimals may round. All four are parameters here. A
decimal that has been stored is read back as it was.
-/

namespace ElectronixMes.Db

open Relational ElectronixMes.Core Serde Arithmetic

/-- What the server decides, the decimal places of a number of seconds over `3600.0` and the
instant that lies a number of days after another, and the decimals of the code: how a numeric is
read and how two of them are added. -/
structure Numerics where
  divScale : ℚ → ℕ
  plusDays : Int → Decimal → Int
  decimal : ℚ → ℚ
  add : ℚ → ℚ → ℚ

/-- The intervals in which a work center ran. -/
def runningStates (db : CmmsDatabase) (workCenterId : String) : List MachineStateRow :=
  db.machineStates.rows.filter fun r => r.workCenterId = workCenterId ∧ r.state = "running"

/-- `EXTRACT(EPOCH FROM (end_ts - start_ts))`. -/
def MachineStateRow.seconds (r : MachineStateRow) : ℚ := ((r.endTs - r.startTs : Int) : ℚ) / 1000000

/-- The length of an interval in hours, as the server divides it. -/
def MachineStateRow.hours (r : MachineStateRow) (num : Numerics) : ℚ :=
  roundPlaces (num.divScale r.seconds) (r.seconds / 3600)

/-- `COALESCE(SUM(EXTRACT(EPOCH FROM (end_ts - start_ts)) / 3600.0), 0)::numeric`. -/
def sumHours (num : Numerics) (db : CmmsDatabase) (workCenterId : String) : ℚ :=
  ((runningStates db workCenterId).map fun r => r.hours num).sum

/-- Cumulative running hours of a work center. -/
def workCenterRunHours (num : Numerics) (db : CmmsDatabase) (workCenterId : String) : ℚ :=
  num.decimal (sumHours num db workCenterId)

/-- `INSERT INTO pm_schedules`. -/
def insertPmSchedule (db : CmmsDatabase) (r : PmScheduleRow) :
    Except RepoError (CmmsDatabase × PmScheduleRow) :=
  match db.pmSchedules.insert? r with
  | none => .error (mapSqlx (.uniqueViolation "pm_schedules_pkey"))
  | some pmSchedules =>
      if r.workCenterId ∈ db.workCenters then .ok ({ db with pmSchedules }, r)
      else .error (mapSqlx (.foreignKeyViolation "pm_schedules"
        "pm_schedules_work_center_id_fkey"))

/-- Create a schedule. By calendar it is due the interval in days from now, by usage once
the work center has run the interval in hours more. -/
def createPmSchedule (num : Numerics) (db : CmmsDatabase) (now : Int) (id workCenterId name
    triggerType : String) (intervalValue : Decimal) (checklistRef : Option String) :
    Except RepoError (CmmsDatabase × PmScheduleRow) :=
  let row : PmScheduleRow :=
    { id, workCenterId, name, triggerType, intervalValue, checklistRef
      lastDoneAt := none
      nextDueAt := none
      lastDoneUsageH := none
      nextDueUsageH := none
      enabled := true
      createdAt := now
      updatedAt := now }
  match PmTrigger.parse triggerType with
  | none => .error (.invalidReference "unknown trigger_type")
  | some .calendar =>
      insertPmSchedule db
        { row with lastDoneAt := some now, nextDueAt := some (num.plusDays now intervalValue) }
  | some .usageHours =>
      let baseline := workCenterRunHours num db workCenterId
      let nextDue := usageNextDue num.add baseline (numeric intervalValue)
      insertPmSchedule db
        { row with lastDoneUsageH := some baseline, nextDueUsageH := some nextDue }

structure PmDue where
  schedule : PmScheduleRow
  currentUsageH : ℚ
  deriving DecidableEq

/-- Is the schedule due at this time and with these run-hours? -/
def PmScheduleRow.isDue (r : PmScheduleRow) (now : Int) (currentUsageH : ℚ) : Bool :=
  match PmTrigger.parse r.triggerType with
  | some .calendar => r.nextDueAt.any fun nextDue => calendarIsDue nextDue now
  | some .usageHours => r.nextDueUsageH.any fun nextDue => usageIsDue nextDue currentUsageH
  | none => false

/-- The enabled schedules that are due, in the order of their creation. -/
def listPmDue (num : Numerics) (db : CmmsDatabase) (now : Int) : List PmDue :=
  (((db.pmSchedules.rows.filter fun r => r.enabled).insertionSort
      fun a b => a.createdAt ≤ b.createdAt).map fun r =>
    ⟨r, workCenterRunHours num db r.workCenterId⟩).filter fun d =>
      d.schedule.isDue now d.currentUsageH

end ElectronixMes.Db
