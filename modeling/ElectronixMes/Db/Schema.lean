import ElectronixMes.Relational.Table
import ElectronixMes.Serde.Json
import Mathlib.Data.Finset.Insert

/-!
# The tables

One schema serves the edge and the cloud. A table is modelled with the columns
that some modelled statement reads or writes; a table of which only the
presence of an id matters (a foreign-key target, the apply ledger) is the set
of its ids.

## Implementation notes

Instants in columns are microseconds, the resolution of `TIMESTAMPTZ`; those of
the signals and of the state engine are nanoseconds, both since the epoch of the
database, the start of the year 2000. Status and state columns are `TEXT` in the
schema and stay strings here: the enumerations live in the code that writes them.
-/

namespace ElectronixMes.Db

open Relational Serde

/-- Bind an instant: the driver keeps the whole microseconds since the epoch and
drops what is left of one. -/
def toSql (t : Int) : Int := t.tdiv 1000

/-- Decode an instant. -/
def ofSql (m : Int) : Int := 1000 * m

@[simp] theorem toSql_ofSql (m : Int) : toSql (ofSql m) = m := by
  rw [toSql, ofSql, Int.mul_tdiv_cancel_left _ (by decide)]

/-- What is dropped is less than a microsecond. -/
theorem toSql_bounds (t : Int) :
    0 ≤ t ∧ ofSql (toSql t) ≤ t ∧ t < ofSql (toSql t) + 1000 ∨
      t < 0 ∧ t ≤ ofSql (toSql t) ∧ ofSql (toSql t) < t + 1000 := by
  unfold toSql ofSql
  rcases lt_or_ge t 0 with hneg | hpos
  · have hneg' := Int.neg_tdiv (-t) 1000
    rw [Int.neg_neg, Int.tdiv_eq_ediv_of_nonneg (show 0 ≤ -t by omega)] at hneg'
    omega
  · rw [Int.tdiv_eq_ediv_of_nonneg hpos]
    omega

theorem toSql_mono ⦃s t : Int⦄ (hst : s ≤ t) : toSql s ≤ toSql t := by
  have hs := toSql_bounds s
  have ht := toSql_bounds t
  unfold ofSql at hs ht
  omega

/-- A decoded instant is before another one exactly when its column is. -/
theorem ofSql_lt {m m' : Int} : ofSql m < ofSql m' ↔ m < m' := by
  unfold ofSql
  omega

theorem ofSql_le {m m' : Int} : ofSql m ≤ ofSql m' ↔ m ≤ m' := by
  unfold ofSql
  omega

theorem ofSql_mono ⦃m m' : Int⦄ (h : m ≤ m') : ofSql m ≤ ofSql m' := ofSql_le.mpr h

/-- A decoded instant before the bound one is before the instant itself. -/
theorem ofSql_lt_of_lt_toSql {m t : Int} (h : m < toSql t) : ofSql m < t := by
  have ht := toSql_bounds t
  unfold ofSql at *
  omega

theorem lt_ofSql_of_toSql_lt {m t : Int} (h : toSql t < m) : t < ofSql m := by
  have ht := toSql_bounds t
  unfold ofSql at *
  omega

structure OrgRow where
  id : String
  code : String
  name : String
  deriving DecidableEq

/-- `enrollmentTokenHash` is what a bearer token is checked against. -/
structure PlantRow where
  id : String
  orgId : String
  code : String
  name : String
  enrollmentTokenHash : Option String
  lastSyncAt : Option Int := none
  deriving DecidableEq

structure AreaRow where
  id : String
  siteId : String
  deriving DecidableEq

structure WorkCenterRow where
  id : String
  idealCycleSeconds : Option ℚ := none
  areaId : String := ""
  deriving DecidableEq

/-- The microseconds of a day. -/
def dayLength : Int := 86400000000

/-- A time of day in microseconds since midnight. -/
structure TimeOfDay where
  micros : Int
  nonneg : 0 ≤ micros
  lt_day : micros < dayLength
  deriving DecidableEq

/-- A daily shift. Its columns are those under the unique constraint and the two times. -/
structure ShiftRow where
  siteId : String
  name : String
  startTime : TimeOfDay
  endTime : TimeOfDay
  deriving DecidableEq

structure WorkOrderRow where
  id : String
  woNumber : String
  partId : String
  routingId : Option String
  qtyOrdered : Decimal
  priority : Int32
  status : String
  plannedStart : Option Int
  plannedEnd : Option Int
  plantId : Option String
  createdAt : Int
  updatedAt : Int
  deriving DecidableEq

structure WoOperationRow where
  id : String
  workOrderId : String
  routingOpId : Option String
  opNo : Int32
  workCenterId : Option String
  status : String
  qtyGood : Int32
  qtyScrap : Int32
  startedAt : Option Int
  completedAt : Option Int
  deriving DecidableEq

/-- `destination = none` is bound for the cloud, else for that plant. -/
structure OutboxRow where
  id : String
  aggregate : String
  entityId : String
  op : String
  payload : Json
  destination : Option String
  createdAt : Int
  syncedAt : Option Int

/-- A registered signal source. -/
structure SignalSourceRow where
  id : String
  workCenterId : String
  sourceKey : String
  kind : String
  enabled : Bool
  deriving DecidableEq

structure MachineEventRow where
  id : String
  ts : Int
  workCenterId : String
  sourceId : Option String
  eventType : String
  deriving DecidableEq

structure ProductionCountRow where
  id : String
  ts : Int
  workCenterId : String
  sourceId : Option String
  good : Int32
  scrap : Int32
  woOperationId : Option String
  scrapReasonId : Option String
  deriving DecidableEq

structure PlannedStopRow where
  id : String
  workCenterId : String
  startsAt : Int
  endsAt : Int
  deriving DecidableEq

structure MachineStateRow where
  id : String
  workCenterId : String
  state : String
  startTs : Int
  endTs : Int
  deriving DecidableEq

structure DowntimeEventRow where
  id : String
  workCenterId : String
  state : String
  startTs : Int
  endTs : Int
  reasonId : Option String
  classifiedBy : Option String
  classifiedAt : Option Int
  deriving DecidableEq

structure ProgramRow where
  id : String
  routingOpId : Option String
  partId : Option String
  programIdentifier : String
  targetMachine : Option String
  createdAt : Int
  deriving DecidableEq

/-- A row of `dnc_transfer_events`. -/
structure TransferRow where
  id : String
  woOperationId : Option String
  programId : String
  direction : String
  status : String
  dncDaemonRef : Option String
  triggeredAt : Int
  completedAt : Option Int
  createdAt : Int
  updatedAt : Int
  deriving DecidableEq

/-- A row of `program_revisions`. -/
structure RevisionRow where
  id : String
  programId : String
  revisionNo : Int32
  source : String
  contentRef : Option String
  status : String
  submittedBy : Option String
  submittedAt : Int
  promotedBy : Option String
  promotedAt : Option Int
  createdAt : Int
  updatedAt : Int
  deriving DecidableEq

/-- A characteristic of an inspection plan, with its limits. -/
structure CharacteristicRow where
  id : String
  lowerLimit : Option Decimal
  upperLimit : Option Decimal
  deriving DecidableEq

structure LotRow where
  id : String
  lotNo : String
  partId : String
  deriving DecidableEq

/-- A unit, and the lot it belongs to. -/
structure SerialRow where
  id : String
  serialNo : String
  lotId : Option String
  deriving DecidableEq

/-- A row of `genealogy`: the parent consumed the child. -/
structure GenealogyRow where
  parentType : String
  parentId : String
  childType : String
  childId : String
  deriving DecidableEq

structure InspectionResultRow where
  id : String
  characteristicId : String
  lotId : Option String
  serialId : Option String
  woOperationId : Option String
  measuredValue : Decimal
  result : String
  inspectedBy : Option String
  createdAt : Int
  deriving DecidableEq

/-- A nonconformance report. -/
structure NcrRow where
  id : String
  ncrNo : String
  inspectionResultId : Option String
  lotId : Option String
  serialId : Option String
  partId : Option String
  status : String
  disposition : Option String
  reason : Option String
  dispositionedBy : Option String
  dispositionedAt : Option Int
  createdAt : Int
  updatedAt : Int
  deriving DecidableEq

structure HoldRow where
  id : String
  entityType : String
  entityId : String
  reason : Option String
  status : String
  createdBy : Option String
  releasedBy : Option String
  createdAt : Int
  releasedAt : Option Int
  ncrId : Option String
  deriving DecidableEq

structure MaterialTxnRow where
  id : String
  lotId : Option String
  serialId : Option String
  txnType : String
  qty : Decimal
  woOperationId : Option String
  ts : Int
  userId : Option String
  deriving DecidableEq

instance : Keyed OrgRow String := ⟨OrgRow.id⟩
instance : Keyed PlantRow String := ⟨PlantRow.id⟩
instance : Keyed AreaRow String := ⟨AreaRow.id⟩
instance : Keyed WorkCenterRow String := ⟨WorkCenterRow.id⟩
instance : Keyed ShiftRow (String × String) := ⟨fun r => (r.siteId, r.name)⟩
instance : Keyed WorkOrderRow String := ⟨WorkOrderRow.id⟩
instance : Keyed WoOperationRow String := ⟨WoOperationRow.id⟩
instance : Keyed OutboxRow String := ⟨OutboxRow.id⟩
instance : Keyed SignalSourceRow String := ⟨SignalSourceRow.id⟩
instance : Keyed MachineEventRow (Int × String) := ⟨fun r => (r.ts, r.id)⟩
instance : Keyed ProductionCountRow (Int × String) := ⟨fun r => (r.ts, r.id)⟩
instance : Keyed PlannedStopRow String := ⟨PlannedStopRow.id⟩
instance : Keyed MachineStateRow String := ⟨MachineStateRow.id⟩
instance : Keyed DowntimeEventRow String := ⟨DowntimeEventRow.id⟩
instance : Keyed ProgramRow String := ⟨ProgramRow.id⟩
instance : Keyed TransferRow String := ⟨TransferRow.id⟩
instance : Keyed RevisionRow String := ⟨RevisionRow.id⟩
instance : Keyed CharacteristicRow String := ⟨CharacteristicRow.id⟩
instance : Keyed LotRow String := ⟨LotRow.id⟩
instance : Keyed SerialRow String := ⟨SerialRow.id⟩
instance : Keyed GenealogyRow GenealogyRow := ⟨id⟩
instance : Keyed InspectionResultRow String := ⟨InspectionResultRow.id⟩
instance : Keyed NcrRow String := ⟨NcrRow.id⟩
instance : Keyed HoldRow String := ⟨HoldRow.id⟩
instance : Keyed MaterialTxnRow String := ⟨MaterialTxnRow.id⟩

@[simp] theorem key_workOrder (r : WorkOrderRow) : Keyed.key r = r.id := rfl
@[simp] theorem key_plant (r : PlantRow) : Keyed.key r = r.id := rfl
@[simp] theorem key_machineState (r : MachineStateRow) : Keyed.key r = r.id := rfl
@[simp] theorem key_downtimeEvent (r : DowntimeEventRow) : Keyed.key r = r.id := rfl

/-- What the maintenance of the work centers refers to: those with an order that a movement of
spares names, and for each schedule that an order names the work centers of the two. -/
structure MaintenanceRefs where
  spared : Finset String := ∅
  scheduled : Finset (String × String) := ∅

/-- A committed state of one database. `routedWorkCenters` are the work centers that
some routing operation names. -/
structure Database where
  orgs : Table OrgRow := ∅
  plants : Table PlantRow := ∅
  users : Finset String := ∅
  parts : Finset String := ∅
  routings : Finset String := ∅
  routingOps : Finset String := ∅
  downtimeReasons : Finset String := ∅
  scrapReasons : Finset String := ∅
  sites : Finset String := ∅
  areas : Table AreaRow := ∅
  workCenters : Table WorkCenterRow := ∅
  routedWorkCenters : Finset String := ∅
  maintenance : MaintenanceRefs := {}
  shifts : Table ShiftRow := ∅
  workOrders : Table WorkOrderRow := ∅
  woOperations : Table WoOperationRow := ∅
  outbox : Table OutboxRow := ∅
  appliedEntries : Finset String := ∅
  signalSources : Table SignalSourceRow := ∅
  machineEvents : Table MachineEventRow := ∅
  productionCounts : Table ProductionCountRow := ∅
  plannedStops : Table PlannedStopRow := ∅
  machineStates : Table MachineStateRow := ∅
  downtimeEvents : Table DowntimeEventRow := ∅
  programs : Table ProgramRow := ∅
  dncTransferEvents : Table TransferRow := ∅
  programRevisions : Table RevisionRow := ∅
  characteristics : Table CharacteristicRow := ∅
  lots : Table LotRow := ∅
  serials : Table SerialRow := ∅
  genealogy : Table GenealogyRow := ∅
  inspectionResults : Table InspectionResultRow := ∅
  ncrs : Table NcrRow := ∅
  holds : Table HoldRow := ∅
  materialTxns : Table MaterialTxnRow := ∅

/-- What PostgreSQL and the driver report for a failed statement. -/
inductive SqlError where
  | rowNotFound
  | uniqueViolation (constraint : String)
  | foreignKeyViolation (table constraint : String)
  | other (message : String)
  deriving DecidableEq

/-- The server's primary message. -/
def SqlError.message : SqlError → String
  | rowNotFound => "no rows returned by a query that expected to return at least one row"
  | uniqueViolation c => "duplicate key value violates unique constraint \"" ++ c ++ "\""
  | foreignKeyViolation t c =>
      "insert or update on table \"" ++ t ++ "\" violates foreign key constraint \"" ++ c ++ "\""
  | other m => m

/-- A foreign key that may be `NULL`. -/
def optionalRef (present : String → Bool) (table constraint : String) :
    Option String → Except SqlError Unit
  | none => .ok ()
  | some k => if present k then .ok () else .error (.foreignKeyViolation table constraint)

/-- A key is accepted when it is missing or present. -/
theorem optionalRef_isOk {present : String → Bool} {table constraint : String}
    {key : Option String} :
    optionalRef present table constraint key = .ok () ↔ ∀ k ∈ key, present k = true := by
  cases key with
  | none => exact iff_of_true rfl fun k hk => absurd hk (Option.not_mem_none k)
  | some k => by_cases hk : present k = true <;> simp [optionalRef, hk]

theorem optionalRef_some {present : String → Bool} {table constraint key : String}
    (h : present key = true) : optionalRef present table constraint (some key) = .ok () :=
  if_pos h

/-- Behind a check that has passed the rest decides. -/
theorem of_check {ε β : Type} {check : Except ε Unit} {rest : Except ε β} {b : β}
    (h : (check >>= fun _ => rest) = .ok b) : rest = .ok b := by
  cases check with
  | error e => cases h
  | ok _ => exact h

theorem bind_eq_ok {ε α β : Type} {x : Except ε α} {f : α → Except ε β} {b : β} :
    x >>= f = .ok b ↔ ∃ a, x = .ok a ∧ f a = .ok b := by
  cases x with
  | error e => simp [bind, Except.bind]
  | ok a => simp [bind, Except.bind]

/-- Errors of repository operations. -/
inductive RepoError where
  | notFound
  | conflict (message : String)
  | invalidReference (message : String)
  | db (e : SqlError)
  deriving DecidableEq

/-- The mapping of the order and sync repositories: unique violations are
conflicts and foreign-key violations invalid references. -/
def mapSqlx (e : SqlError) : RepoError :=
  match e with
  | .rowNotFound => .notFound
  | .uniqueViolation _ => .conflict e.message
  | .foreignKeyViolation _ _ => .invalidReference e.message
  | .other _ => .db e

/-- The mapping of the ingest, OEE and analytics repositories, which only tells
a missing row apart. -/
def mapSqlxPlain : SqlError → RepoError
  | .rowNotFound => .notFound
  | e => .db e

/-- An error response of a handler. -/
structure ApiErr where
  status : Nat
  code : String
  message : String
  deriving DecidableEq

/-- Translate a repository error into a response. -/
def repoErr : RepoError → ApiErr
  | .notFound => ⟨404, "not_found", "resource not found"⟩
  | .conflict m => ⟨409, "conflict", m⟩
  | .invalidReference m => ⟨400, "invalid_reference", m⟩
  | .db _ => ⟨500, "internal", "database error"⟩

end ElectronixMes.Db
