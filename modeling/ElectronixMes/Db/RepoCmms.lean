import ElectronixMes.Core.Cmms
import ElectronixMes.Db.Schema
import Mathlib.Algebra.Order.Field.Rat
import Mathlib.Data.List.Sort

/-!
# Maintenance orders, spares and procurement (crates/mes-db/src/repo_cmms.rs)

The tables of the CMMS and of the ERP integration, and the statements on the former. Of the
tables they reference only the ids matter here. Stock is never stored: it is the sum of the
signed movements.
-/

namespace ElectronixMes.Db

open Relational ElectronixMes.Core Serde

/-- A row of `pm_schedules`. -/
structure PmScheduleRow where
  id : String
  workCenterId : String
  name : String
  triggerType : String
  intervalValue : Decimal
  lastDoneAt : Option Int
  nextDueAt : Option Int
  lastDoneUsageH : Option ℚ
  nextDueUsageH : Option ℚ
  checklistRef : Option String
  enabled : Bool
  createdAt : Int
  updatedAt : Int
  deriving DecidableEq

/-- A row of `maintenance_work_orders`. -/
structure MaintenanceWoRow where
  id : String
  workCenterId : String
  pmScheduleId : Option String
  woType : String
  status : String
  technicianId : Option String
  failureCode : Option String
  notes : Option String
  openedAt : Int
  scheduledAt : Option Int
  startedAt : Option Int
  closedAt : Option Int
  verifiedAt : Option Int
  createdAt : Int
  updatedAt : Int
  deriving DecidableEq

structure SparePartRow where
  id : String
  code : String
  name : String
  reorderPoint : Decimal
  reorderQty : Decimal
  deriving DecidableEq

/-- `qty` is the signed effect on the stock. -/
structure SpareTxnRow where
  id : String
  sparePartId : String
  maintenanceWoId : Option String
  txnType : String
  qty : Decimal
  ts : Int
  userId : Option String
  deriving DecidableEq

/-- A row of `procurement_requests`. -/
structure ProcurementRow where
  id : String
  sparePartId : String
  qtyRequested : Decimal
  reason : String
  status : String
  erpReference : Option String
  pushedAt : Option Int
  createdAt : Int
  updatedAt : Int
  deriving DecidableEq

/-- A row of `erp_connections`; the token is stored encrypted. -/
structure ErpConnectionRow where
  id : String
  endpointUrl : String
  authTokenEnc : Option String
  fieldMapping : Json
  direction : String
  enabled : Bool

/-- A row of `erp_sync_log`. -/
structure SyncLogRow where
  id : String
  connectionId : Option String
  direction : String
  entity : String
  recordCount : Int32
  status : String
  detail : Option String
  ts : Int
  deriving DecidableEq

instance : Keyed PmScheduleRow String := ⟨PmScheduleRow.id⟩
instance : Keyed MaintenanceWoRow String := ⟨MaintenanceWoRow.id⟩
instance : Keyed SparePartRow String := ⟨SparePartRow.id⟩
instance : Keyed SpareTxnRow String := ⟨SpareTxnRow.id⟩
instance : Keyed ProcurementRow String := ⟨ProcurementRow.id⟩
instance : Keyed ErpConnectionRow String := ⟨ErpConnectionRow.id⟩
instance : Keyed SyncLogRow String := ⟨SyncLogRow.id⟩

@[simp] theorem key_maintenanceWo (r : MaintenanceWoRow) : Keyed.key r = r.id := rfl

/-- The committed tables of the CMMS and of the ERP integration. -/
structure CmmsDatabase where
  users : Finset String := ∅
  workCenters : Finset String := ∅
  machineStates : Table MachineStateRow := ∅
  pmSchedules : Table PmScheduleRow := ∅
  maintenanceWos : Table MaintenanceWoRow := ∅
  spareParts : Table SparePartRow := ∅
  spareTxns : Table SpareTxnRow := ∅
  procurementRequests : Table ProcurementRow := ∅
  erpConnections : Table ErpConnectionRow := ∅
  erpSyncLog : Table SyncLogRow := ∅

section MaintenanceWos

/-- The row a new order starts with. -/
def newMaintenanceWo (now : Int) (id workCenterId : String) (pmScheduleId : Option String)
    (woType : MaintenanceType) (notes : Option String) : MaintenanceWoRow where
  id := id
  workCenterId := workCenterId
  pmScheduleId := pmScheduleId
  woType := woType.asStr
  status := "requested"
  technicianId := none
  failureCode := none
  notes := notes
  openedAt := now
  scheduledAt := none
  startedAt := none
  closedAt := none
  verifiedAt := none
  createdAt := now
  updatedAt := now

/-- `INSERT INTO maintenance_work_orders`. -/
def insertMaintenanceWo (db : CmmsDatabase) (r : MaintenanceWoRow) :
    Except SqlError CmmsDatabase :=
  match db.maintenanceWos.insert? r with
  | none => .error (.uniqueViolation "maintenance_work_orders_pkey")
  | some maintenanceWos => do
      optionalRef (· ∈ db.workCenters) "maintenance_work_orders"
        "maintenance_work_orders_work_center_id_fkey" (some r.workCenterId)
      optionalRef (fun k => (db.pmSchedules.lookup k).isSome) "maintenance_work_orders"
        "maintenance_work_orders_pm_schedule_id_fkey" r.pmScheduleId
      return { db with maintenanceWos }

/-- Raise a maintenance order. -/
def createMaintenanceWo (db : CmmsDatabase) (now : Int) (id workCenterId : String)
    (pmScheduleId : Option String) (woType : String) (notes : Option String) :
    Except RepoError (CmmsDatabase × MaintenanceWoRow) :=
  match MaintenanceType.parse woType with
  | none => .error (.invalidReference "unknown wo_type")
  | some woType =>
      let row := newMaintenanceWo now id workCenterId pmScheduleId woType notes
      match insertMaintenanceWo db row with
      | .error e => .error (mapSqlx e)
      | .ok db => .ok (db, row)

/-- Stamp the column that belongs to a status. -/
def MaintenanceWoRow.stamped (r : MaintenanceWoRow) (now : Int) :
    MaintenanceStatus → MaintenanceWoRow
  | .scheduled => { r with scheduledAt := some now }
  | .inProgress => { r with startedAt := some now }
  | .completed => { r with closedAt := some now }
  | .verified => { r with verifiedAt := some now }
  | .requested => { r with openedAt := now }

/-- The `UPDATE` of a transition: status, its column, and what the call brings along. -/
def MaintenanceWoRow.advanced (r : MaintenanceWoRow) (now : Int) (next : MaintenanceStatus)
    (technicianId failureCode : Option String) : MaintenanceWoRow :=
  { r.stamped now next with
    status := next.asStr
    technicianId := technicianId <|> r.technicianId
    failureCode := failureCode <|> r.failureCode
    updatedAt := now }

/-- The check of a locked row: its status, when the move is allowed. -/
def checkTransition (r : MaintenanceWoRow) (next : MaintenanceStatus) :
    Except RepoError MaintenanceStatus :=
  match MaintenanceStatus.parse r.status with
  | none => .error (.conflict "corrupt status")
  | some cur =>
      if cur.canTransition next then .ok cur
      else .error (.conflict ("cannot move " ++ cur.asStr ++ " -> " ++ next.asStr))

/-- The foreign key of the technician. -/
def technicianRef (db : CmmsDatabase) (technicianId : Option String) : Except SqlError Unit :=
  optionalRef (· ∈ db.users) "maintenance_work_orders"
    "maintenance_work_orders_technician_id_fkey" technicianId

/-- Advance an order one lifecycle step, in one transaction. -/
def transitionMaintenanceWo (db : CmmsDatabase) (now : Int) (id next : String)
    (technicianId failureCode : Option String) :
    Except RepoError (CmmsDatabase × MaintenanceWoRow) :=
  match MaintenanceStatus.parse next with
  | none => .error (.invalidReference "unknown status")
  | some next =>
      match db.maintenanceWos.lookup id with
      | none => .error .notFound
      | some r =>
          match checkTransition r next with
          | .error e => .error e
          | .ok _ =>
              match technicianRef db technicianId with
              | .error e => .error (mapSqlx e)
              | .ok () =>
                  let updated := r.advanced now next technicianId failureCode
                  .ok ({ db with maintenanceWos := db.maintenanceWos.put updated }, updated)

variable {db db' : CmmsDatabase} {r : MaintenanceWoRow}

theorem insertMaintenanceWo_ok (h : insertMaintenanceWo db r = .ok db') :
    ∃ maintenanceWos, db.maintenanceWos.insert? r = some maintenanceWos ∧
      db' = { db with maintenanceWos } := by
  unfold insertMaintenanceWo at h
  split at h
  · cases h
  · rename_i wos hins
    repeat replace h := of_check h
    cases h
    exact ⟨wos, hins, rfl⟩

theorem createMaintenanceWo_ok {now : Int} {id workCenterId woType : String}
    {pmScheduleId notes : Option String} {res : CmmsDatabase × MaintenanceWoRow}
    (h : createMaintenanceWo db now id workCenterId pmScheduleId woType notes = .ok res) :
    ∃ type, res.2 = newMaintenanceWo now id workCenterId pmScheduleId type notes ∧
      ∃ maintenanceWos, db.maintenanceWos.insert? res.2 = some maintenanceWos ∧
        res.1 = { db with maintenanceWos } := by
  unfold createMaintenanceWo at h
  split at h
  · cases h
  · rename_i type _
    dsimp only at h
    split at h
    · cases h
    · rename_i inserted hinserted
      cases h
      obtain ⟨wos, hins, hdb⟩ := insertMaintenanceWo_ok hinserted
      exact ⟨type, rfl, wos, hins, hdb⟩

theorem checkTransition_ok {next cur : MaintenanceStatus} (h : checkTransition r next = .ok cur) :
    MaintenanceStatus.parse r.status = some cur ∧ cur.canTransition next = true := by
  unfold checkTransition at h
  split at h
  · cases h
  · rename_i cur' hparse
    split at h
    · rename_i hcan
      cases h
      exact ⟨hparse, hcan⟩
    · cases h

@[simp] theorem advanced_id (now : Int) (next : MaintenanceStatus)
    (technicianId failureCode : Option String) :
    (r.advanced now next technicianId failureCode).id = r.id := by
  cases next <;> rfl

end MaintenanceWos

section Spares

/-- The value of a decimal. -/
def numeric (d : Decimal) : ℚ := (d.mantissa : ℚ) / (Int.pow 10 d.scale : Int)

/-- The signed stock effect of a movement; `qty` arrives as a magnitude, but for `adjust`. -/
def signedQty (txnType : String) (qty : Decimal) : Option Decimal :=
  match txnType with
  | "issue" => some { qty with mantissa := -(qty.mantissa.natAbs : Int) }
  | "receive" => some { qty with mantissa := qty.mantissa.natAbs }
  | "adjust" => some qty
  | _ => none

/-- Derived stock: the sum of the signed movements. -/
def spareStock (db : CmmsDatabase) (sparePartId : String) : ℚ :=
  ((db.spareTxns.rows.filter fun t => t.sparePartId = sparePartId).map
    fun t => numeric t.qty).sum

/-- `INSERT INTO spare_txns`. -/
def insertSpareTxn (db : CmmsDatabase) (r : SpareTxnRow) : Except SqlError CmmsDatabase :=
  match db.spareTxns.insert? r with
  | none => .error (.uniqueViolation "spare_txns_pkey")
  | some spareTxns => do
      optionalRef (fun k => (db.spareParts.lookup k).isSome) "spare_txns"
        "spare_txns_spare_part_id_fkey" (some r.sparePartId)
      optionalRef (fun k => (db.maintenanceWos.lookup k).isSome) "spare_txns"
        "spare_txns_maintenance_wo_id_fkey" r.maintenanceWoId
      optionalRef (· ∈ db.users) "spare_txns" "spare_txns_user_id_fkey" r.userId
      return { db with spareTxns }

/-- The rows under the partial unique index `uq_procurement_open_reorder`. -/
def ProcurementRow.IsOpenReorder (r : ProcurementRow) : Prop :=
  r.status = "requested" ∧ r.reason = "reorder_point"

instance (r : ProcurementRow) : Decidable r.IsOpenReorder :=
  inferInstanceAs (Decidable (r.status = "requested" ∧ r.reason = "reorder_point"))

/-- A spare has an open reorder request. -/
def hasOpenReorder (db : CmmsDatabase) (sparePartId : String) : Bool :=
  db.procurementRequests.rows.any fun r => decide (r.sparePartId = sparePartId ∧ r.IsOpenReorder)

/-- The row a new request starts with. -/
def newProcurement (now : Int) (id sparePartId : String) (qtyRequested : Decimal)
    (reason : ProcurementReason) : ProcurementRow where
  id := id
  sparePartId := sparePartId
  qtyRequested := qtyRequested
  reason := reason.asStr
  status := "requested"
  erpReference := none
  pushedAt := none
  createdAt := now
  updatedAt := now

/-- `INSERT INTO procurement_requests`, past its unique index. -/
def insertProcurement (db : CmmsDatabase) (r : ProcurementRow) : Except SqlError CmmsDatabase :=
  match db.procurementRequests.insert? r with
  | none => .error (.uniqueViolation "procurement_requests_pkey")
  | some procurementRequests => do
      optionalRef (fun k => (db.spareParts.lookup k).isSome) "procurement_requests"
        "procurement_requests_spare_part_id_fkey" (some r.sparePartId)
      return { db with procurementRequests }

/-- The reorder request of a breach: `ON CONFLICT DO NOTHING` on the open request. -/
def raiseReorder (db : CmmsDatabase) (now : Int) (id sparePartId : String)
    (reorderQty : Decimal) : Except SqlError (CmmsDatabase × Option ProcurementRow) :=
  if hasOpenReorder db sparePartId then .ok (db, none)
  else
    let row := newProcurement now id sparePartId reorderQty .reorderPoint
    (insertProcurement db row).map fun db => (db, some row)

/-- The stock has fallen to the reorder point and there is something to order. -/
def breaches (stock : ℚ) (reorderPoint reorderQty : Decimal) : Bool :=
  stock ≤ numeric reorderPoint ∧ 0 < numeric reorderQty

/-- Record a spare movement; returns its id, the new stock, and the reorder request it
raised. The ids of the movement and of the request are drawn in this order. -/
def recordSpareTxn (db : CmmsDatabase) (now : Int) (ids : ℕ → String) (sparePartId : String)
    (maintenanceWoId : Option String) (txnType : String) (qty : Decimal) (userId : String) :
    Except RepoError (CmmsDatabase × String × ℚ × Option ProcurementRow) :=
  match signedQty txnType qty with
  | none => .error (.invalidReference "unknown txn_type")
  | some signed =>
      match db.spareParts.lookup sparePartId with
      | none => .error .notFound
      | some part =>
          match insertSpareTxn db
              ⟨ids 0, sparePartId, maintenanceWoId, txnType, signed, now, some userId⟩ with
          | .error e => .error (mapSqlx e)
          | .ok db =>
              let stock := spareStock db sparePartId
              if breaches stock part.reorderPoint part.reorderQty then
                match raiseReorder db now (ids 1) sparePartId part.reorderQty with
                | .error e => .error (mapSqlx e)
                | .ok (db, request) => .ok (db, ids 0, stock, request)
              else .ok (db, ids 0, stock, none)

/-- Raise a request by hand. -/
def createProcurementRequest (db : CmmsDatabase) (now : Int) (id sparePartId : String)
    (qtyRequested : Decimal) : Except RepoError (CmmsDatabase × ProcurementRow) :=
  let row := newProcurement now id sparePartId qtyRequested .manual
  match insertProcurement db row with
  | .error e => .error (mapSqlx e)
  | .ok db => .ok (db, row)

/-- All requests, newest first. -/
def listProcurementRequests (db : CmmsDatabase) : List ProcurementRow :=
  db.procurementRequests.rows.insertionSort fun a b => b.createdAt ≤ a.createdAt

/-- All spares by their code, with the derived stock. -/
def listSpareParts (db : CmmsDatabase) : List (SparePartRow × ℚ) :=
  (db.spareParts.rows.insertionSort fun a b => a.code ≤ b.code).map
    fun s => (s, spareStock db s.id)

variable {db db' : CmmsDatabase}

theorem insertSpareTxn_ok {r : SpareTxnRow} (h : insertSpareTxn db r = .ok db') :
    ∃ spareTxns, db.spareTxns.insert? r = some spareTxns ∧ db' = { db with spareTxns } := by
  unfold insertSpareTxn at h
  split at h
  · cases h
  · rename_i txns hins
    repeat replace h := of_check h
    cases h
    exact ⟨txns, hins, rfl⟩

theorem insertProcurement_ok {r : ProcurementRow} (h : insertProcurement db r = .ok db') :
    ∃ procurementRequests, db.procurementRequests.insert? r = some procurementRequests ∧
      db' = { db with procurementRequests } := by
  unfold insertProcurement at h
  split at h
  · cases h
  · rename_i requests hins
    replace h := of_check h
    cases h
    exact ⟨requests, hins, rfl⟩

theorem createProcurementRequest_ok {now : Int} {id sparePartId : String} {qty : Decimal}
    {res : CmmsDatabase × ProcurementRow}
    (h : createProcurementRequest db now id sparePartId qty = .ok res) :
    res.2 = newProcurement now id sparePartId qty .manual ∧
      ∃ procurementRequests, db.procurementRequests.insert? res.2 = some procurementRequests ∧
        res.1 = { db with procurementRequests } := by
  unfold createProcurementRequest at h
  dsimp only at h
  split at h
  · cases h
  · rename_i inserted hinserted
    cases h
    exact ⟨rfl, insertProcurement_ok hinserted⟩

theorem hasOpenReorder_iff {sparePartId : String} :
    hasOpenReorder db sparePartId ↔
      ∃ r ∈ db.procurementRequests, r.sparePartId = sparePartId ∧ r.IsOpenReorder := by
  simp [hasOpenReorder]

theorem hasOpenReorder_eq_false {sparePartId : String} :
    hasOpenReorder db sparePartId = false ↔
      ∀ r ∈ db.procurementRequests, r.sparePartId = sparePartId → ¬ r.IsOpenReorder := by
  simp [hasOpenReorder]

/-- A movement adds its quantity to the stock of its spare. -/
theorem spareStock_insert {r : SpareTxnRow} {spareTxns : Table SpareTxnRow}
    (h : db.spareTxns.insert? r = some spareTxns) (hdb : db'.spareTxns = spareTxns)
    (sparePartId : String) :
    spareStock db' sparePartId =
      spareStock db sparePartId + if r.sparePartId = sparePartId then numeric r.qty else 0 := by
  unfold spareStock
  rw [hdb, Table.rows_insert? h, List.filter_append, List.map_append, List.sum_append]
  by_cases hr : r.sparePartId = sparePartId <;> simp [hr]

end Spares

end ElectronixMes.Db
