import ElectronixMes.Db.RepoSync

/-!
# Work orders, operations and downtime classification

The writes of the order repository. Creating an order inserts it, its
operations and its outbox entry in one transaction; setting a status writes the
order row alone. Classifying a stop attaches a reason to a row; splitting one
shrinks the row and inserts the second half.
-/

namespace ElectronixMes.Db

open Relational Serde

structure WoOperationInput where
  opNo : Int32
  routingOpId : Option String
  workCenterId : Option String

structure WorkOrderInput where
  woNumber : String
  partId : String
  routingId : Option String
  qtyOrdered : Decimal
  priority : Option Int32
  plannedStart : Option Int
  plannedEnd : Option Int
  operations : List WoOperationInput := []

section Orders

/-- Insert one operation of an order. -/
def insertOperation (db : Database) (woId id : String) (op : WoOperationInput) :
    Except SqlError Database :=
  let row : WoOperationRow :=
    { id
      workOrderId := woId
      routingOpId := op.routingOpId
      opNo := op.opNo
      workCenterId := op.workCenterId
      status := "pending"
      qtyGood := 0
      qtyScrap := 0
      startedAt := none
      completedAt := none }
  match db.woOperations.insert? row with
  | none => .error (.uniqueViolation "wo_operations_pkey")
  | some woOperations =>
      if db.woOperations.rows.any fun r => r.workOrderId = woId ∧ r.opNo = op.opNo then
        .error (.uniqueViolation "wo_operations_work_order_id_op_no_key")
      else do
        optionalRef (· ∈ db.routingOps) "wo_operations" "wo_operations_routing_op_id_fkey"
          op.routingOpId
        optionalRef (fun k => (db.workCenters.lookup k).isSome) "wo_operations"
          "wo_operations_work_center_id_fkey" op.workCenterId
        return { db with woOperations }

/-- The loop over the operations; `ids` are drawn in order. -/
def insertOperations (woId : String) : (ℕ → String) → Database → List WoOperationInput →
    Except SqlError Database
  | _, db, [] => .ok db
  | ids, db, op :: rest =>
      match insertOperation db woId (ids 0) op with
      | .error e => .error e
      | .ok db => insertOperations woId (ids ∘ Nat.succ) db rest

/-- The payload an edge queues for the cloud. -/
def orderPayload (c : Codec) (woId : String) (input : WorkOrderInput) : Json := .obj
  [("id", .str woId),
    ("wo_number", .str input.woNumber),
    ("part_id", .str input.partId),
    ("routing_id", optStringToJson input.routingId),
    ("qty_ordered", c.decimalToJson input.qtyOrdered),
    ("priority", .int (input.priority.getD 100).toInt),
    ("status", .str "draft"),
    ("planned_start", c.optDateTimeToJson input.plannedStart),
    ("planned_end", c.optDateTimeToJson input.plannedEnd)]

def orderRow (now : Int) (woId : String) (input : WorkOrderInput) : WorkOrderRow where
  id := woId
  woNumber := input.woNumber
  partId := input.partId
  routingId := input.routingId
  qtyOrdered := input.qtyOrdered
  priority := input.priority.getD 100
  status := "draft"
  plannedStart := input.plannedStart
  plannedEnd := input.plannedEnd
  plantId := none
  createdAt := now
  updatedAt := now

/-- Create a work order, its operations and its outbox entry atomically. The ids
are drawn in this order: the order, its operations, the entry. -/
def createWorkOrder (c : Codec) (db : Database) (now : Int) (ids : ℕ → String)
    (input : WorkOrderInput) : Except RepoError (Database × WorkOrderRow) :=
  let woId := ids 0
  match insertWorkOrder db (orderRow now woId input) with
  | .error e => .error (mapSqlx e)
  | .ok db =>
      match insertOperations woId (ids ∘ Nat.succ) db input.operations with
      | .error e => .error (mapSqlx e)
      | .ok db =>
          (enqueue db (ids (input.operations.length + 1)) "work_order" woId "upsert"
            (orderPayload c woId input) none now).map fun db => (db, orderRow now woId input)

def getWorkOrder (db : Database) (id : String) : Except RepoError WorkOrderRow :=
  match db.workOrders.lookup id with
  | none => .error .notFound
  | some r => .ok r

def WorkOrderRow.withStatus (r : WorkOrderRow) (status : String) (now : Int) : WorkOrderRow :=
  { r with status, updatedAt := now }

/-- Set the work-order status; transition validity is the caller's. -/
def setWorkOrderStatus (db : Database) (id status : String) (now : Int) :
    Except RepoError (Database × WorkOrderRow) :=
  match db.workOrders.lookup id with
  | none => .error .notFound
  | some r =>
      let r := r.withStatus status now
      .ok ({ db with workOrders := db.workOrders.put r }, r)

def getOperation (db : Database) (opId : String) : Except RepoError WoOperationRow :=
  match db.woOperations.lookup opId with
  | none => .error .notFound
  | some r => .ok r

theorem getOperation_ok {db : Database} {opId : String} {r : WoOperationRow}
    (h : getOperation db opId = .ok r) : db.woOperations.lookup opId = some r := by
  unfold getOperation at h
  split at h
  · cases h
  · rename_i ho
    rw [ho, Except.ok.inj h]

def WoOperationRow.started (r : WoOperationRow) (now : Int) : WoOperationRow :=
  { r with status := "in_progress", startedAt := r.startedAt <|> some now }

/-- Move an operation to `in_progress`, stamping `started_at` once. -/
def startOperation (db : Database) (opId : String) (now : Int) :
    Except RepoError (Database × WoOperationRow) :=
  match db.woOperations.lookup opId with
  | none => .error .notFound
  | some r =>
      .ok ({ db with woOperations := db.woOperations.put (r.started now) }, r.started now)

def WoOperationRow.completed (r : WoOperationRow) (now : Int) : WoOperationRow :=
  { r with status := "completed", completedAt := some now }

/-- Move an operation to `completed`, stamping `completed_at`. -/
def completeOperation (db : Database) (opId : String) (now : Int) :
    Except RepoError (Database × WoOperationRow) :=
  match db.woOperations.lookup opId with
  | none => .error .notFound
  | some r =>
      .ok ({ db with woOperations := db.woOperations.put (r.completed now) }, r.completed now)

/-- `total + count` into an `INTEGER` column, refused when it leaves 32 bits. -/
def rollUp (total count : Int32) : Except SqlError Int32 :=
  let s := total.toInt + count.toInt
  if Int32.minValue.toInt ≤ s ∧ s ≤ Int32.maxValue.toInt then .ok (Int32.ofInt s)
  else .error (.other "integer out of range")

/-- The ledger row of a count against an operation. -/
def countRow (id opId workCenterId : String) (good scrap : Int32) (scrapReasonId : Option String)
    (ts : Int) : ProductionCountRow :=
  ⟨id, ts, workCenterId, none, good, scrap, some opId, scrapReasonId⟩

/-- The insert of a count: the primary key, then the foreign keys. -/
def insertCount (db : Database) (r : ProductionCountRow) :
    Except SqlError (Table ProductionCountRow) :=
  match db.productionCounts.insert? r with
  | none => .error (.uniqueViolation "production_counts_pkey")
  | some productionCounts => do
      optionalRef (fun k => (db.workCenters.lookup k).isSome) "production_counts"
        "production_counts_work_center_id_fkey" (some r.workCenterId)
      optionalRef (fun k => (db.woOperations.lookup k).isSome) "production_counts"
        "production_counts_wo_operation_id_fkey" r.woOperationId
      optionalRef (· ∈ db.scrapReasons) "production_counts"
        "production_counts_scrap_reason_id_fkey" r.scrapReasonId
      return productionCounts

theorem insertCount_ok {db : Database} {r : ProductionCountRow} {t : Table ProductionCountRow}
    (h : insertCount db r = .ok t) : db.productionCounts.insert? r = some t := by
  unfold insertCount at h
  split at h
  · cases h
  · rename_i counts hins
    repeat replace h := of_check h
    cases h
    exact hins

/-- The operation with a count added to its totals. -/
def addCount (r : WoOperationRow) (good scrap : Int32) : Except SqlError WoOperationRow := do
  let qtyGood ← rollUp r.qtyGood good
  let qtyScrap ← rollUp r.qtyScrap scrap
  return { r with qtyGood, qtyScrap }

/-- Record a count against an operation: append a ledger row and roll the totals
up onto the operation, in one transaction. -/
def recordCount (db : Database) (id opId workCenterId : String) (good scrap : Int32)
    (scrapReasonId : Option String) (ts : Int) : Except RepoError (Database × WoOperationRow) :=
  match insertCount db (countRow id opId workCenterId good scrap scrapReasonId ts) with
  | .error e => .error (mapSqlx e)
  | .ok productionCounts =>
      match db.woOperations.lookup opId with
      | none => .error .notFound
      | some r =>
          match addCount r good scrap with
          | .error e => .error (mapSqlx e)
          | .ok r =>
              .ok ({ db with productionCounts, woOperations := db.woOperations.put r }, r)

theorem rollUp_ok {total count sum : Int32} (h : rollUp total count = .ok sum) :
    sum.toInt = total.toInt + count.toInt := by
  unfold rollUp at h
  dsimp only at h
  split at h
  · rename_i hrange
    cases h
    have hmin : Int32.minValue.toInt = -2 ^ 31 := by decide
    have hmax : Int32.maxValue.toInt = 2 ^ 31 - 1 := by decide
    rw [hmin, hmax] at hrange
    exact Int32.toInt_ofInt_of_le hrange.1 (by omega)
  · cases h

/-- Adding a count changes the totals and nothing else. -/
theorem addCount_ok {r r' : WoOperationRow} {good scrap : Int32}
    (h : addCount r good scrap = .ok r') :
    r' = { r with qtyGood := r'.qtyGood, qtyScrap := r'.qtyScrap } ∧
      r'.qtyGood.toInt = r.qtyGood.toInt + good.toInt ∧
      r'.qtyScrap.toInt = r.qtyScrap.toInt + scrap.toInt := by
  unfold addCount at h
  cases hgood : rollUp r.qtyGood good with
  | error e =>
      rw [hgood] at h
      cases h
  | ok qtyGood =>
      rw [hgood] at h
      cases hscrap : rollUp r.qtyScrap scrap with
      | error e =>
          rw [hscrap] at h
          cases h
      | ok qtyScrap =>
          rw [hscrap] at h
          cases h
          exact ⟨rfl, rollUp_ok hgood, rollUp_ok hscrap⟩

section CreateSpec

variable {c : Codec} {db db' : Database} {now : Int} {ids : ℕ → String}

/-- An operation as an order is created with it. -/
structure NewOperation (woId : String) (r : WoOperationRow) : Prop where
  workOrderId : r.workOrderId = woId
  status : r.status = "pending"
  qtyGood : r.qtyGood = 0
  qtyScrap : r.qtyScrap = 0

theorem insertOperation_ok {woId id : String} {op : WoOperationInput}
    (h : insertOperation db woId id op = .ok db') :
    db' = { db with woOperations := db'.woOperations } ∧
      ∃ r, NewOperation woId r ∧ db.woOperations.insert? r = some db'.woOperations := by
  unfold insertOperation at h
  dsimp only at h
  split at h
  · cases h
  · rename_i woOperations hins
    split at h
    · cases h
    · cases h₁ : optionalRef (· ∈ db.routingOps) "wo_operations"
          "wo_operations_routing_op_id_fkey" op.routingOpId with
      | error e =>
          rw [h₁] at h
          cases h
      | ok _ =>
          rw [h₁] at h
          cases h₂ : optionalRef (fun k => (db.workCenters.lookup k).isSome) "wo_operations"
              "wo_operations_work_center_id_fkey" op.workCenterId with
          | error e =>
              rw [h₂] at h
              cases h
          | ok _ =>
              rw [h₂] at h
              cases h
              exact ⟨rfl, _, ⟨rfl, rfl, rfl, rfl⟩, hins⟩

/-- The loop over the operations adds new operations of the order and nothing else. -/
theorem insertOperations_ok {woId : String} {ops : List WoOperationInput}
    (h : insertOperations woId ids db ops = .ok db') :
    db' = { db with woOperations := db'.woOperations } ∧
      (∀ r ∈ db.woOperations, r ∈ db'.woOperations) ∧
      ∀ r ∈ db'.woOperations, r ∈ db.woOperations ∨ NewOperation woId r := by
  induction ops generalizing db ids with
  | nil =>
      cases h
      exact ⟨rfl, fun r hr => hr, fun r hr => Or.inl hr⟩
  | cons op rest ih =>
      unfold insertOperations at h
      split at h
      · cases h
      · rename_i mid hmid
        obtain ⟨hframe, new, hnew, hins⟩ := insertOperation_ok hmid
        obtain ⟨hrest, hkept, hmem⟩ := ih h
        refine ⟨?_, ?_, ?_⟩
        · rw [hframe] at hrest
          exact hrest
        · intro r hr
          exact hkept r ((Table.mem_insert? hins).mpr (Or.inl hr))
        · intro r hr
          rcases hmem r hr with hr | hr
          · rcases (Table.mem_insert? hins).mp hr with hr | rfl
            · exact Or.inl hr
            · exact Or.inr hnew
          · exact Or.inr hr

/-- The entry that is queued with a new order. -/
def orderEntryRow (c : Codec) (now : Int) (ids : ℕ → String) (input : WorkOrderInput) :
    OutboxRow :=
  ⟨ids (input.operations.length + 1), "work_order", ids 0, "upsert",
    orderPayload c (ids 0) input, none, now, none⟩

/-- A successful creation adds one order, whose number and references were
checked, and one entry. -/
theorem createWorkOrder_ok {input : WorkOrderInput} {res : Database × WorkOrderRow}
    (h : createWorkOrder c db now ids input = .ok res) :
    res.2 = orderRow now (ids 0) input ∧
      numberTaken db.workOrders input.woNumber (ids 0) = false ∧
      orderRefs db input.partId input.routingId = .ok () ∧
      db.workOrders.insert? res.2 = some res.1.workOrders ∧
      db.outbox.insert? (orderEntryRow c now ids input) = some res.1.outbox ∧
      res.1.parts = db.parts ∧ res.1.routings = db.routings ∧
      res.1.productionCounts = db.productionCounts ∧
      (∀ r ∈ db.woOperations, r ∈ res.1.woOperations) ∧
      ∀ r ∈ res.1.woOperations, r ∈ db.woOperations ∨ NewOperation (ids 0) r := by
  unfold createWorkOrder at h
  dsimp only at h
  split at h
  · cases h
  · rename_i mid hmid
    obtain ⟨workOrders, hins, hfree, hrefs, rfl⟩ := insertWorkOrder_ok hmid
    split at h
    · cases h
    · rename_i ops hops
      obtain ⟨hframe, hkept, hnew⟩ := insertOperations_ok hops
      cases henq : enqueue ops (ids (input.operations.length + 1)) "work_order" (ids 0) "upsert"
          (orderPayload c (ids 0) input) none now with
      | error e =>
          rw [henq] at h
          cases h
      | ok final =>
          rw [henq] at h
          cases h
          obtain ⟨outbox, hout, rfl⟩ := enqueue_ok henq
          rw [hframe] at hout ⊢
          exact ⟨rfl, hfree, hrefs, hins, hout, rfl, rfl, rfl, hkept, hnew⟩

end CreateSpec

end Orders

section Downtime

/-- The foreign keys of a downtime row, in the order they were declared. An
update only checks the ones it changes. -/
def downtimeRefs (db : Database) (old : Option DowntimeEventRow) (r : DowntimeEventRow) :
    Except SqlError Unit := do
  let changed (column : DowntimeEventRow → Option String) : Option String :=
    if old.map column = some (column r) then none else column r
  optionalRef (fun k => (db.workCenters.lookup k).isSome) "downtime_events"
    "downtime_events_work_center_id_fkey" (changed fun r => some r.workCenterId)
  optionalRef (· ∈ db.downtimeReasons) "downtime_events" "downtime_events_reason_id_fkey"
    (changed DowntimeEventRow.reasonId)
  optionalRef (· ∈ db.users) "downtime_events" "downtime_events_classified_by_fkey"
    (changed DowntimeEventRow.classifiedBy)

/-- Attach a reason to a downtime event. -/
def classifyDowntime (db : Database) (id reasonId classifiedBy : String) (now : Int) :
    Except RepoError (Database × DowntimeEventRow) :=
  match db.downtimeEvents.lookup id with
  | none => .error .notFound
  | some old =>
      let r := { old with
        reasonId := some reasonId
        classifiedBy := some classifiedBy
        classifiedAt := some now }
      match downtimeRefs db (some old) r with
      | .error e => .error (mapSqlx e)
      | .ok () => .ok ({ db with downtimeEvents := db.downtimeEvents.put r }, r)

/-- The first half of a split: the row itself, shrunk to where the split point is bound.
Without a reason it keeps who classified it and when. -/
def firstHalf (old : DowntimeEventRow) (splitAt : Int) (reason : Option String)
    (classifiedBy : String) (now : Int) : DowntimeEventRow :=
  { old with
    endTs := toSql splitAt
    reasonId := reason
    classifiedBy := if reason.isNone then old.classifiedBy else some classifiedBy
    classifiedAt := if reason.isNone then old.classifiedAt else some now }

def secondHalf (old : DowntimeEventRow) (id : String) (splitAt : Int) (reason : Option String)
    (classifiedBy : String) (now : Int) : DowntimeEventRow where
  id := id
  workCenterId := old.workCenterId
  state := old.state
  startTs := toSql splitAt
  endTs := old.endTs
  reasonId := reason
  classifiedBy := if reason.isNone then none else some classifiedBy
  classifiedAt := if reason.isNone then none else some now

/-- Split a downtime event in two contiguous events, optionally classifying
each; `newId` is drawn for the second. The check is on the decoded ends of the event, so a split
point less than a microsecond from one may be bound as it. -/
def splitDowntime (db : Database) (id : String) (splitAt : Int)
    (firstReason secondReason : Option String) (classifiedBy newId : String) (now : Int) :
    Except RepoError (Database × DowntimeEventRow × DowntimeEventRow) :=
  match db.downtimeEvents.lookup id with
  | none => .error .notFound
  | some old =>
      if splitAt ≤ ofSql old.startTs ∨ ofSql old.endTs ≤ splitAt then
        .error (.conflict "split point must lie strictly inside the event")
      else
        let first := firstHalf old splitAt firstReason classifiedBy now
        let second := secondHalf old newId splitAt secondReason classifiedBy now
        match downtimeRefs db (some old) first with
        | .error e => .error (mapSqlx e)
        | .ok () =>
            match (db.downtimeEvents.put first).insert? second with
            | none => .error (mapSqlx (.uniqueViolation "downtime_events_pkey"))
            | some downtimeEvents =>
                match downtimeRefs db none second with
                | .error e => .error (mapSqlx e)
                | .ok () => .ok ({ db with downtimeEvents }, first, second)

variable {db : Database} {id : String} {now : Int}

/-- A successful classification rewrites one row and keeps its span. -/
theorem classifyDowntime_ok {reasonId classifiedBy : String} {res : Database × DowntimeEventRow}
    (h : classifyDowntime db id reasonId classifiedBy now = .ok res) :
    ∃ old ∈ db.downtimeEvents, res.2.id = old.id ∧ res.2.workCenterId = old.workCenterId ∧
      res.2.startTs = old.startTs ∧ res.2.endTs = old.endTs ∧
      res.1 = { db with downtimeEvents := db.downtimeEvents.put res.2 } := by
  unfold classifyDowntime at h
  split at h
  · cases h
  · rename_i old hold
    dsimp only at h
    split at h
    · cases h
    · cases h
      exact ⟨old, (Table.lookup_eq_some.mp hold).1, rfl, rfl, rfl, rfl, rfl⟩

/-- A split point inside an event is bound inside it or as an end of it. -/
theorem toSql_inside {old : DowntimeEventRow} {splitAt : Int}
    (h : ¬ (splitAt ≤ ofSql old.startTs ∨ ofSql old.endTs ≤ splitAt)) :
    old.startTs ≤ toSql splitAt ∧ toSql splitAt ≤ old.endTs ∧ old.startTs < old.endTs := by
  rw [not_or, not_le, not_le] at h
  have hlo := toSql_mono h.1.le
  have hhi := toSql_mono h.2.le
  rw [toSql_ofSql] at hlo hhi
  exact ⟨hlo, hhi, ofSql_lt.mp (h.1.trans h.2)⟩

/-- A successful split replaces one row by two that meet inside it. -/
theorem splitDowntime_ok {splitAt : Int} {firstReason secondReason : Option String}
    {classifiedBy newId : String} {res : Database × DowntimeEventRow × DowntimeEventRow}
    (h : splitDowntime db id splitAt firstReason secondReason classifiedBy newId now = .ok res) :
    ∃ old ∈ db.downtimeEvents, ∃ downtimeEvents,
      old.startTs ≤ toSql splitAt ∧ toSql splitAt ≤ old.endTs ∧
      res.2.1 = firstHalf old splitAt firstReason classifiedBy now ∧
      res.2.2 = secondHalf old newId splitAt secondReason classifiedBy now ∧
      (db.downtimeEvents.put res.2.1).insert? res.2.2 = some downtimeEvents ∧
      res.1 = { db with downtimeEvents } := by
  unfold splitDowntime at h
  split at h
  · cases h
  · rename_i old hold
    split at h
    · cases h
    · rename_i hinside
      obtain ⟨hlo, hhi, -⟩ := toSql_inside hinside
      dsimp only at h
      split at h
      · cases h
      · split at h
        · cases h
        · rename_i downtimeEvents hins
          split at h
          · cases h
          · cases h
            exact ⟨old, (Table.lookup_eq_some.mp hold).1, downtimeEvents, hlo, hhi, rfl, rfl,
              hins, rfl⟩

end Downtime

end ElectronixMes.Db
