import ElectronixMes.Db.Schema
import ElectronixMes.Core.StateMachine

/-!
# Stored signals and derived rows

The reads that feed the state engine, and `replaceDerived`, which deletes the
derived rows that overlap a window and inserts the freshly computed ones in
one transaction. Ids drawn by the transaction come from a supply `ids`; a
taken id makes the insert, and with it the transaction, fail. Windows and intervals
are instants of the code: they are bound on the way in and decoded on the way out.
-/

namespace ElectronixMes.Db

open Relational ElectronixMes.Core Timeline

/-- The database string for a machine state. -/
def stateStr : MachineState → String
  | .running => "running"
  | .microStop => "micro_stop"
  | .down => "down"
  | .plannedStop => "planned_stop"

theorem stateStr_injective : Function.Injective stateStr := by
  intro s t h
  cases s <;> cases t <;> first | rfl | exact absurd h (by decide)

def MachineStateRow.span (r : MachineStateRow) : Span Int := ⟨r.startTs, r.endTs⟩

def DowntimeEventRow.span (r : DowntimeEventRow) : Span Int := ⟨r.startTs, r.endTs⟩

section Signals

/-- Resolve a source by its key; `none` when it is not registered. -/
def resolveSource (db : Database) (sourceKey : String) : Option SignalSourceRow :=
  db.signalSources.rows.find? fun r => r.sourceKey = sourceKey

/-- The foreign keys of a stored signal. -/
def signalRefs (db : Database) (table workCenterId sourceId : String) : Except SqlError Unit := do
  optionalRef (fun k => (db.workCenters.lookup k).isSome) table
    (table ++ "_work_center_id_fkey") (some workCenterId)
  optionalRef (fun k => (db.signalSources.lookup k).isSome) table
    (table ++ "_source_id_fkey") (some sourceId)

/-- Append a raw machine event. -/
def insertMachineEvent (db : Database) (id : String) (ts : Int)
    (workCenterId sourceId eventType : String) : Except RepoError Database :=
  match db.machineEvents.insert? ⟨id, toSql ts, workCenterId, some sourceId, eventType⟩ with
  | none => .error (mapSqlxPlain (.uniqueViolation "machine_events_pkey"))
  | some machineEvents =>
      match signalRefs db "machine_events" workCenterId sourceId with
      | .error e => .error (mapSqlxPlain e)
      | .ok () => .ok { db with machineEvents }

/-- Append a production count. -/
def insertProductionCount (db : Database) (id : String) (ts : Int)
    (workCenterId sourceId : String) (good scrap : Int32) : Except RepoError Database :=
  match db.productionCounts.insert?
      ⟨id, toSql ts, workCenterId, some sourceId, good, scrap, none, none⟩ with
  | none => .error (mapSqlxPlain (.uniqueViolation "production_counts_pkey"))
  | some productionCounts =>
      match signalRefs db "production_counts" workCenterId sourceId with
      | .error e => .error (mapSqlxPlain e)
      | .ok () => .ok { db with productionCounts }

theorem mem_of_resolveSource {db : Database} {sourceKey : String} {source : SignalSourceRow}
    (h : resolveSource db sourceKey = some source) : source ∈ db.signalSources :=
  List.mem_of_find?_eq_some h

end Signals

section Fetch

/-- Cycle-pulse timestamps of a work center in `[start, finish]`, ascending. -/
def fetchCyclePulses (db : Database) (workCenterId : String) (start finish : Int) : List Int :=
  (((db.machineEvents.rows.filter fun r =>
      r.workCenterId = workCenterId ∧ r.eventType = "cycle" ∧
        toSql start ≤ r.ts ∧ r.ts ≤ toSql finish).map
    MachineEventRow.ts).insertionSort (· ≤ ·)).map ofSql

/-- Planned-stop intervals overlapping `[start, finish]`, by their start. -/
def fetchPlannedIntervals (db : Database) (workCenterId : String) (start finish : Int) :
    List PlannedInterval :=
  ((db.plannedStops.rows.filter fun r =>
      r.workCenterId = workCenterId ∧
        r.startsAt < toSql finish ∧ toSql start < r.endsAt).insertionSort
    fun a b => a.startsAt ≤ b.startsAt).map fun r => ⟨ofSql r.startsAt, ofSql r.endsAt⟩

theorem mem_fetchCyclePulses {db : Database} {wc : String} {start finish p : Int}
    (h : p ∈ fetchCyclePulses db wc start finish) :
    ∃ m, p = ofSql m ∧ toSql start ≤ m ∧ m ≤ toSql finish := by
  unfold fetchCyclePulses at h
  obtain ⟨m, hm, rfl⟩ := List.mem_map.mp h
  rw [List.mem_insertionSort] at hm
  obtain ⟨r, hr, rfl⟩ := List.mem_map.mp hm
  have hr' := (List.mem_filter.mp hr).2
  rw [decide_eq_true_eq] at hr'
  exact ⟨r.ts, rfl, hr'.2.2⟩

theorem mem_fetchPlannedIntervals {db : Database} {wc : String} {start finish : Int}
    {p : PlannedInterval} (h : p ∈ fetchPlannedIntervals db wc start finish) :
    (∃ m, p.start = ofSql m) ∧ ∃ m, p.finish = ofSql m := by
  obtain ⟨r, -, rfl⟩ := List.mem_map.mp h
  exact ⟨⟨_, rfl⟩, _, rfl⟩

end Fetch

section InsertRows

variable {ρ : Type} [Keyed ρ String]

/-- One insert into a table whose rows reference a work center: the primary key
is checked first, the foreign key at the end of the statement. -/
def insertReferencing (db : Database) (table workCenterId : String) (t : Table ρ) (r : ρ) :
    Except RepoError (Table ρ) :=
  match t.insert? r with
  | none => .error (mapSqlxPlain (.uniqueViolation (table ++ "_pkey")))
  | some t' =>
      if (db.workCenters.lookup workCenterId).isSome then .ok t'
      else
        .error (mapSqlxPlain
          (.foreignKeyViolation table (table ++ "_work_center_id_fkey")))

/-- The insert loop of a transaction, which stops at the first failure. -/
def insertRows (db : Database) (table workCenterId : String) (t : Table ρ) (rows : List ρ) :
    Except RepoError (Table ρ) :=
  rows.foldlM (insertReferencing db table workCenterId) t

variable {db : Database} {table workCenterId : String}

theorem insertReferencing_ok {t t' : Table ρ} {r : ρ} :
    insertReferencing db table workCenterId t r = .ok t' ↔
      t.insert? r = some t' ∧ (db.workCenters.lookup workCenterId).isSome := by
  unfold insertReferencing
  cases t.insert? r with
  | none => simp
  | some u =>
      dsimp only
      split
      · rename_i hwc
        simp [hwc]
      · rename_i hwc
        simp [hwc]

theorem insertRows_cons (t : Table ρ) (r : ρ) (rows : List ρ) :
    insertRows db table workCenterId t (r :: rows) =
      match insertReferencing db table workCenterId t r with
      | .ok t' => insertRows db table workCenterId t' rows
      | .error e => .error e := by
  unfold insertRows
  rw [List.foldlM_cons]
  cases insertReferencing db table workCenterId t r <;> rfl

/-- A loop that succeeds has appended every row, and the work center exists
unless there was nothing to insert. -/
theorem rows_of_insertRows {t t' : Table ρ} {rows : List ρ}
    (h : insertRows db table workCenterId t rows = .ok t') :
    t'.rows = t.rows ++ rows ∧
      (rows ≠ [] → (db.workCenters.lookup workCenterId).isSome) := by
  induction rows generalizing t with
  | nil =>
      cases h
      simp
  | cons r rest ih =>
      rw [insertRows_cons] at h
      cases hr : insertReferencing db table workCenterId t r with
      | error e =>
          rw [hr] at h
          cases h
      | ok u =>
          rw [hr] at h
          obtain ⟨hins, hwc⟩ := insertReferencing_ok.mp hr
          obtain ⟨hrows, -⟩ := ih h
          refine ⟨?_, fun _ => hwc⟩
          rw [hrows, Table.rows_insert? hins, List.append_assoc, List.singleton_append]

/-- Fresh, distinct ids and an existing work center make the loop succeed. -/
theorem insertRows_isOk (table : String) {t : Table ρ} {rows : List ρ}
    (hwc : (db.workCenters.lookup workCenterId).isSome)
    (hkeys : ((t.rows ++ rows).map Keyed.key).Nodup) :
    ∃ t', insertRows db table workCenterId t rows = .ok t' := by
  induction rows generalizing t with
  | nil => exact ⟨t, rfl⟩
  | cons r rest ih =>
      have hfree : ∀ s ∈ t, Keyed.key s ≠ Keyed.key r := by
        intro s hs hkey
        rw [List.map_append, List.nodup_append] at hkeys
        exact hkeys.2.2 _ (List.mem_map_of_mem hs) _ (by simp) hkey
      obtain ⟨u, hu⟩ := Table.exists_insert? hfree
      have hstep : insertReferencing db table workCenterId t r = .ok u :=
        insertReferencing_ok.mpr ⟨hu, hwc⟩
      rw [insertRows_cons, hstep]
      apply ih
      rw [Table.rows_insert? hu]
      simpa using hkeys

end InsertRows

section ReplaceDerived

def stateRow (workCenterId id : String) (iv : StateInterval) : MachineStateRow :=
  ⟨id, workCenterId, stateStr iv.state, toSql iv.start, toSql iv.finish⟩

def downtimeRow (workCenterId : String) (dt : DowntimeEvent) : DowntimeEventRow :=
  ⟨dt.id, workCenterId, stateStr dt.state, toSql dt.start, toSql dt.finish, none, none, none⟩

/-- The machine states the transaction deletes: every row that overlaps. -/
def staleState (workCenterId : String) (window : Span Int) (r : MachineStateRow) : Bool :=
  r.workCenterId = workCenterId ∧ r.span.Overlaps window

/-- The downtime the transaction deletes: every unclassified row that overlaps. -/
def staleDowntime (workCenterId : String) (window : Span Int) (r : DowntimeEventRow) : Bool :=
  r.workCenterId = workCenterId ∧ r.reasonId = none ∧ r.span.Overlaps window

/-- Replace the derived machine states and the unclassified downtime of a window. -/
def replaceDerived (db : Database) (workCenterId : String) (windowStart windowEnd : Int)
    (states : List StateInterval) (downtime : List DowntimeEvent) (ids : ℕ → String) :
    Except RepoError Database := do
  let window : Span Int := ⟨toSql windowStart, toSql windowEnd⟩
  let machineStates ← insertRows db "machine_states" workCenterId
    (db.machineStates.delete (staleState workCenterId window))
    (states.mapIdx fun i iv => stateRow workCenterId (ids i) iv)
  let downtimeEvents ← insertRows db "downtime_events" workCenterId
    (db.downtimeEvents.delete (staleDowntime workCenterId window))
    (downtime.map (downtimeRow workCenterId))
  return { db with machineStates, downtimeEvents }

end ReplaceDerived

end ElectronixMes.Db
