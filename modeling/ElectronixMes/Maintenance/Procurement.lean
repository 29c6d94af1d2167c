import ElectronixMes.Edge.ErpExport
import ElectronixMes.Transition.Sessions

/-!
# Spare movements, procurement requests and exports, statement by statement

A spare movement inserts its ledger row, sums the ledger and raises a reorder request on a
breach, in one transaction under READ COMMITTED: the sum sees what is committed and the
transaction's own row. An export lists the requests, posts them and marks them, with nothing
around the three steps. Calls of all kinds are interleaved; a connection may be lost at any
statement.

## Implementation notes

What a transaction has written is local to its session until the commit, `now()` is the start
of the transaction. `ON CONFLICT` on the partial unique index waits for an open transaction
that has inserted a request for the same spare. A decimal that does not fit the driver's type
fails its statement, which is a lost connection here. A post counts when the ERP has answered
it with success; what it held is kept with the store.
-/

namespace ElectronixMes.Maintenance.Procurement

open Db ElectronixMes.Core Edge Relational Serde Transition

/-- The committed tables, the sessions with an uncommitted reorder request by spare, and the
posts the ERP has answered with success, oldest first. -/
structure Store where
  db : CmmsDatabase
  reorders : Locks String
  posts : List Post

/-- What a statement draws from outside: the clock, an id, the ERP's answer to a post, and
whether the connection is lost instead. -/
structure Input where
  now : Int
  id : String
  answer : Except String Json := .ok .null
  lost : Bool := false

inductive Request where
  | movement (sparePartId : String) (maintenanceWoId : Option String) (txnType : String)
      (qty : Decimal) (userId : String)
  | manual (sparePartId : String) (qtyRequested : Decimal)
  | push (req : ErpExportRequest)

inductive Reply where
  | movement (txnId : String) (stock : ℚ) (request : Option ProcurementRow)
  | request (r : ProcurementRow)
  | exported (res : ErpExportResult)

/-- A movement with its sign. -/
structure Movement where
  sparePartId : String
  maintenanceWoId : Option String
  txnType : String
  qty : Decimal
  userId : String

/-- The next statement of a request, with the variables it has read. -/
inductive Phase where
  | readThresholds (m : Movement)
  | insertTxn (m : Movement) (part : SparePartRow)
  | sumStock (row : SpareTxnRow) (part : SparePartRow)
  | raiseRequest (row : SpareTxnRow) (part : SparePartRow) (stock : ℚ)
  | commit (row : SpareTxnRow) (stock : ℚ) (raised : Option ProcurementRow)
  | insertManual (sparePartId : String) (qtyRequested : Decimal)
  | readConnection (req : ErpExportRequest)
  | listRecords (req : ErpExportRequest) (conn : ErpConnectionRow) (mapping : FieldMapping)
  | post (req : ErpExportRequest) (p : Post)
  | mark (req : ErpExportRequest) (p : Post) (resp : Json)
  | logSuccess (req : ErpExportRequest) (p : Post)
  | logFailure (req : ErpExportRequest) (p : Post) (detail : String)
  | ended (reply : Except ApiErr Reply)

def Request.phase : Request → Phase
  | movement sparePartId maintenanceWoId txnType qty userId =>
      match signedQty txnType qty with
      | none => .ended (.error (repoErr (.invalidReference "unknown txn_type")))
      | some qty => .readThresholds ⟨sparePartId, maintenanceWoId, txnType, qty, userId⟩
  | manual sparePartId qtyRequested => .insertManual sparePartId qtyRequested
  | push req => .readConnection req

def failed (st : Store) (e : ApiErr) : Store × Phase := (st, .ended (.error e))

section Run

variable (c : Codec) (stockToJson : ℚ → Json) (decrypt : String → Option String)

/-- The end of a movement's transaction: both rows become visible at once. -/
def commitMovement (st : Store) (row : SpareTxnRow) (stock : ℚ)
    (raised : Option ProcurementRow) : Store × Phase :=
  match st.db.spareTxns.insert? row, raised with
  | none, _ => failed st (repoErr (mapSqlx (.uniqueViolation "spare_txns_pkey")))
  | some spareTxns, none =>
      ({ st with db := { st.db with spareTxns } }, .ended (.ok (.movement row.id stock none)))
  | some spareTxns, some r =>
      match st.db.procurementRequests.insert? r with
      | none =>
          failed st (repoErr (mapSqlx (.uniqueViolation "procurement_requests_pkey")))
      | some procurementRequests =>
          ({ st with db := { st.db with spareTxns, procurementRequests } },
            .ended (.ok (.movement row.id stock (some r))))

/-- Give up an uncommitted reorder request. -/
def Store.release (st : Store) : Option ProcurementRow → Store
  | none => st
  | some r => { st with reorders := st.reorders.release r.sparePartId }

/-- A post and its answer. -/
def answered (input : Input) (st : Store) (req : ErpExportRequest) (p : Post) : Store × Phase :=
  match input.answer with
  | .error detail => (st, .logFailure req p detail)
  | .ok resp => ({ st with posts := st.posts ++ [p] }, .mark req p resp)

/-- One statement of a session whose connection holds. -/
def run (who : ℕ) (input : Input) (st : Store) : Phase → Store × Phase
  | .readThresholds m =>
      match st.db.spareParts.lookup m.sparePartId with
      | none => failed st (repoErr .notFound)
      | some part => (st, .insertTxn m part)
  | .insertTxn m part =>
      let row : SpareTxnRow :=
        ⟨input.id, m.sparePartId, m.maintenanceWoId, m.txnType, m.qty, input.now, some m.userId⟩
      match insertSpareTxn st.db row with
      | .error e => failed st (repoErr (mapSqlx e))
      | .ok _ => (st, .sumStock row part)
  | .sumStock row part =>
      let stock := spareStock st.db row.sparePartId + numeric row.qty
      if breaches stock part.reorderPoint part.reorderQty then (st, .raiseRequest row part stock)
      else (st, .commit row stock none)
  | .raiseRequest row part stock =>
      if st.reorders.waits who row.sparePartId then (st, .raiseRequest row part stock)
      else if hasOpenReorder st.db row.sparePartId then (st, .commit row stock none)
      else
        let r := newProcurement row.ts input.id row.sparePartId part.reorderQty .reorderPoint
        match insertProcurement st.db r with
        | .error e => failed st (repoErr (mapSqlx e))
        | .ok _ =>
            ({ st with reorders := st.reorders.take who row.sparePartId },
              .commit row stock (some r))
  | .commit row stock raised => commitMovement (st.release raised) row stock raised
  | .insertManual sparePartId qtyRequested =>
      match createProcurementRequest st.db input.now input.id sparePartId qtyRequested with
      | .error e => failed st (repoErr e)
      | .ok (db, r) => ({ st with db }, .ended (.ok (.request r)))
  | .readConnection req =>
      match getConnectionSecret st.db req.connectionId with
      | .error e => failed st (repoErr e)
      | .ok conn =>
          match exportMapping conn with
          | .error e => failed st e
          | .ok mapping => (st, .listRecords req conn mapping)
  | .listRecords req conn mapping =>
      match exportRecords c stockToJson st.db req.entity with
      | .error e => failed st e
      | .ok (canonical, ids) =>
          match preparePost decrypt conn mapping canonical ids with
          | .error e => failed st e
          | .ok p => (st, .post req p)
  | .post req p => answered input st req p
  | .mark req p resp =>
      ({ st with db := markPosted st.db input.now p resp }, .logSuccess req p)
  | .logSuccess req p =>
      match insertSyncLog st.db input.now input.id req.connectionId "export" req.entity
          p.recordCount "success" none with
      | .error e => failed st (repoErr e)
      | .ok db =>
          ({ st with db }, .ended (.ok (.exported
            ⟨req.entity, p.payload.length, true, p.payload, input.id⟩)))
  | .logFailure req p detail =>
      failed { st with db := logFailed st.db input.now input.id req p detail }
        ⟨502, "export_failed", detail⟩
  | .ended reply => (st, .ended reply)

/-- The answer to a lost connection. -/
def connectionLost : ApiErr := ⟨500, "internal", "database error"⟩

/-- A lost connection rolls an open transaction back. A post is no statement of the
database, so it goes on. -/
def rollback (input : Input) (st : Store) : Phase → Store × Phase
  | .commit _ _ raised => failed (st.release raised) connectionLost
  | .post req p => answered input st req p
  | .logFailure _ _ detail => failed st ⟨502, "export_failed", detail⟩
  | .ended reply => (st, .ended reply)
  | _ => failed st connectionLost

def exec (who : ℕ) (input : Input) (st : Store) (ph : Phase) : Store × Phase :=
  if input.lost then rollback input st ph else run c stockToJson decrypt who input st ph

abbrev State := Sessions Store Phase

abbrev Schedule := List (Move Request Input)

def step : State → Move Request Input → State :=
  Sessions.step Request.phase (exec c stockToJson decrypt)

/-- A database without open sessions, before any post. -/
def opened (db : CmmsDatabase) : State := ⟨⟨db, .free, []⟩, []⟩

/-- The state after the first `k` moves. -/
def stateAt (db : CmmsDatabase) (moves : Schedule) (k : ℕ) : State :=
  (moves.take k).foldl (step c stockToJson decrypt) (opened db)

end Run

section Alone

variable (c : Codec) (stockToJson : ℚ → Json) (decrypt : String → Option String)

/-- The first statements of a session that runs alone and keeps its connection, each with
its input. -/
def alone (st : Store) (ph : Phase) : List Input → Store × Phase
  | [] => (st, ph)
  | input :: rest =>
      let res := run c stockToJson decrypt 0 input st ph
      alone res.1 res.2 rest

theorem alone_ended (st : Store) (reply : Except ApiErr Reply) (inputs : List Input) :
    alone c stockToJson decrypt st (.ended reply) inputs = (st, .ended reply) := by
  induction inputs with
  | nil => rfl
  | cons input rest ih => exact ih

/-- A request is inserted next to the movements, whatever these are. -/
theorem insertProcurement_spareTxns (db : CmmsDatabase) (spareTxns : Table SpareTxnRow)
    (r : ProcurementRow) :
    insertProcurement { db with spareTxns } r
      = (insertProcurement db r).map fun db => { db with spareTxns } := by
  unfold insertProcurement
  dsimp only
  cases db.procurementRequests.insert? r with
  | none => rfl
  | some requests =>
      dsimp only
      cases optionalRef (fun k => (db.spareParts.lookup k).isSome) "procurement_requests"
        "procurement_requests_spare_part_id_fkey" (some r.sparePartId) <;> rfl

/-- Alone, a movement is the function of the repository. -/
theorem alone_movement (db : CmmsDatabase) (now : Int) (ids : ℕ → String)
    (sparePartId : String) (maintenanceWoId : Option String) (txnType : String) (qty : Decimal)
    (userId : String) :
    let res := recordSpareTxn db now ids sparePartId maintenanceWoId txnType qty userId
    let final := alone c stockToJson decrypt ⟨db, .free, []⟩
      (Request.movement sparePartId maintenanceWoId txnType qty userId).phase
      [⟨now, "", .ok .null, false⟩, ⟨now, ids 0, .ok .null, false⟩, ⟨now, "", .ok .null, false⟩,
        ⟨now, ids 1, .ok .null, false⟩, ⟨now, "", .ok .null, false⟩]
    final.1.db = (res.map Prod.fst).toOption.getD db ∧
      final.2 = .ended ((res.map fun r => .movement r.2.1 r.2.2.1 r.2.2.2).mapError repoErr) := by
  simp only [Request.phase, recordSpareTxn]
  cases signedQty txnType qty with
  | none =>
      dsimp only
      rw [alone_ended]
      exact ⟨rfl, rfl⟩
  | some signed =>
      dsimp only
      rw [alone, run]
      cases hpart : db.spareParts.lookup sparePartId with
      | none =>
          dsimp only [failed]
          rw [alone_ended]
          exact ⟨rfl, rfl⟩
      | some part =>
          dsimp only
          rw [alone, run]
          dsimp only
          generalize hrow : (⟨ids 0, sparePartId, maintenanceWoId, txnType, signed, now,
            some userId⟩ : SpareTxnRow) = row
          have hspare : row.sparePartId = sparePartId := by rw [← hrow]
          have hid : row.id = ids 0 := by rw [← hrow]
          have hts : row.ts = now := by rw [← hrow]
          cases hinsert : insertSpareTxn db row with
          | error e =>
              dsimp only [failed]
              rw [alone_ended]
              exact ⟨rfl, rfl⟩
          | ok db' =>
              obtain ⟨txns, htxns, rfl⟩ := insertSpareTxn_ok hinsert
              have hstock : spareStock { db with spareTxns := txns } sparePartId
                  = spareStock db sparePartId + numeric row.qty := by
                rw [spareStock_insert htxns rfl, if_pos hspare]
              dsimp only
              rw [alone, run, hspare, hstock]
              dsimp only
              cases breaches (spareStock db sparePartId + numeric row.qty) part.reorderPoint
                  part.reorderQty with
              | false =>
                  simp only [Bool.false_eq_true, if_false]
                  rw [alone, run]
                  simp only [commitMovement, Store.release, htxns]
                  rw [alone_ended, hid]
                  exact ⟨rfl, rfl⟩
              | true =>
                  have hfree : Locks.free.waits 0 sparePartId = false := rfl
                  have hopen : hasOpenReorder { db with spareTxns := txns } sparePartId
                      = hasOpenReorder db sparePartId := rfl
                  simp only [if_true, raiseReorder, hopen]
                  rw [alone, run, hspare, hfree, hts]
                  simp only [Bool.false_eq_true, if_false]
                  cases hasOpenReorder db sparePartId with
                  | true =>
                      simp only [if_true]
                      rw [alone, run]
                      simp only [commitMovement, Store.release, htxns]
                      rw [alone, hid]
                      exact ⟨rfl, rfl⟩
                  | false =>
                      simp only [Bool.false_eq_true, if_false, insertProcurement_spareTxns]
                      cases hraise : insertProcurement db (newProcurement now (ids 1) sparePartId
                          part.reorderQty .reorderPoint) with
                      | error e =>
                          dsimp only [failed]
                          rw [alone_ended]
                          exact ⟨rfl, rfl⟩
                      | ok db'' =>
                          obtain ⟨requests, hrequests, rfl⟩ := insertProcurement_ok hraise
                          dsimp only
                          rw [alone, run]
                          simp only [commitMovement, Store.release, htxns, hrequests]
                          rw [alone, hid]
                          exact ⟨rfl, rfl⟩

/-- Alone, an export is the handler. -/
theorem alone_push (db : CmmsDatabase) (now : Int) (logId : String) (answer : Except String Json)
    (req : ErpExportRequest) :
    let res := exportNow c stockToJson decrypt db now logId answer req
    let final := alone c stockToJson decrypt ⟨db, .free, []⟩ (Request.push req).phase
      (List.replicate 5 ⟨now, logId, answer, false⟩)
    final.1.db = res.1 ∧ final.1.posts = res.2.1.toList ∧
      final.2 = .ended (res.2.2.map .exported) := by
  simp only [Request.phase, exportNow, List.replicate]
  rw [alone, run]
  cases getConnectionSecret db req.connectionId with
  | error e =>
      dsimp only [failed]
      rw [alone_ended]
      exact ⟨rfl, rfl, rfl⟩
  | ok conn =>
      dsimp only
      cases exportMapping conn with
      | error e =>
          dsimp only [failed]
          rw [alone_ended]
          exact ⟨rfl, rfl, rfl⟩
      | ok mapping =>
          dsimp only
          rw [alone, run]
          cases hrecords : exportRecords c stockToJson db req.entity with
          | error e =>
              dsimp only [failed]
              rw [alone_ended]
              exact ⟨rfl, rfl, rfl⟩
          | ok records =>
              obtain ⟨canonical, ids⟩ := records
              dsimp only
              cases preparePost decrypt conn mapping canonical ids with
              | error e =>
                  dsimp only [failed]
                  rw [alone_ended]
                  exact ⟨rfl, rfl, rfl⟩
              | ok p =>
                  dsimp only
                  rw [alone, run, answered]
                  cases answer with
                  | error detail =>
                      dsimp only
                      rw [alone, run]
                      dsimp only [failed]
                      rw [alone_ended]
                      exact ⟨rfl, rfl, rfl⟩
                  | ok resp =>
                      dsimp only
                      rw [alone, run, alone, run]
                      dsimp only
                      cases insertSyncLog (markPosted db now p resp) now logId req.connectionId
                          "export" req.entity p.recordCount "success" none with
                      | error e => exact ⟨rfl, rfl, rfl⟩
                      | ok db' => exact ⟨rfl, rfl, rfl⟩

end Alone

section Ran

variable {c : Codec} {stockToJson : ℚ → Json} {decrypt : String → Option String}

/-- The reorder request a session has inserted and not committed. -/
def Phase.raised? : Phase → Option ProcurementRow
  | .commit _ _ raised => raised
  | _ => none

def Phase.marks : Phase → Bool
  | .mark _ _ _ => true
  | _ => false

/-- What one statement can do, by the phase it is taken in. -/
inductive Ran (who : ℕ) (input : Input) (st : Store) : Phase → Store × Phase → Prop
  | refused {ph : Phase} (e : ApiErr)
      (cause : ph.marks = true → input.lost = true) :
      Ran who input st ph (st.release ph.raised?, .ended (.error e))
  | looked {m : Movement} {part : SparePartRow}
      (stored : st.db.spareParts.lookup m.sparePartId = some part) :
      Ran who input st (.readThresholds m) (st, .insertTxn m part)
  | inserted {m : Movement} {row : SpareTxnRow} (part : SparePartRow)
      (spare : row.sparePartId = m.sparePartId) :
      Ran who input st (.insertTxn m part) (st, .sumStock row part)
  | breached {row : SpareTxnRow} {part : SparePartRow} {stock : ℚ}
      (sum : stock = spareStock st.db row.sparePartId + numeric row.qty) :
      Ran who input st (.sumStock row part) (st, .raiseRequest row part stock)
  | passed {row : SpareTxnRow} {part : SparePartRow} {stock : ℚ}
      (sum : stock = spareStock st.db row.sparePartId + numeric row.qty)
      (above : breaches stock part.reorderPoint part.reorderQty = false) :
      Ran who input st (.sumStock row part) (st, .commit row stock none)
  | waited (row : SpareTxnRow) (part : SparePartRow) (stock : ℚ) :
      Ran who input st (.raiseRequest row part stock) (st, .raiseRequest row part stock)
  | found {row : SpareTxnRow} (part : SparePartRow) (stock : ℚ)
      (isOpen : hasOpenReorder st.db row.sparePartId = true) :
      Ran who input st (.raiseRequest row part stock) (st, .commit row stock none)
  | raised {row : SpareTxnRow} {r : ProcurementRow} (part : SparePartRow) (stock : ℚ)
      (grants : st.reorders.waits who row.sparePartId = false)
      (noneOpen : hasOpenReorder st.db row.sparePartId = false)
      (spare : r.sparePartId = row.sparePartId) (isOpen : r.IsOpenReorder) :
      Ran who input st (.raiseRequest row part stock)
        ({ st with reorders := st.reorders.take who r.sparePartId }, .commit row stock (some r))
  | moved {row : SpareTxnRow} {spareTxns : Table SpareTxnRow} (stock : ℚ)
      (insert : st.db.spareTxns.insert? row = some spareTxns) :
      Ran who input st (.commit row stock none)
        ({ st with db := { st.db with spareTxns } }, .ended (.ok (.movement row.id stock none)))
  | reordered {row : SpareTxnRow} {r : ProcurementRow} {spareTxns : Table SpareTxnRow}
      {procurementRequests : Table ProcurementRow} (stock : ℚ)
      (insert : st.db.spareTxns.insert? row = some spareTxns)
      (insertRequest : st.db.procurementRequests.insert? r = some procurementRequests) :
      Ran who input st (.commit row stock (some r))
        ({ st with
            db := { st.db with spareTxns, procurementRequests }
            reorders := st.reorders.release r.sparePartId },
          .ended (.ok (.movement row.id stock (some r))))
  | byHand {sparePartId : String} {qtyRequested : Decimal} {r : ProcurementRow}
      {procurementRequests : Table ProcurementRow}
      (insertRequest : st.db.procurementRequests.insert? r = some procurementRequests)
      (status : r.status = "requested") (reason : r.reason = "manual") :
      Ran who input st (.insertManual sparePartId qtyRequested)
        ({ st with db := { st.db with procurementRequests } }, .ended (.ok (.request r)))
  | connected (req : ErpExportRequest) (conn : ErpConnectionRow) (mapping : FieldMapping) :
      Ran who input st (.readConnection req) (st, .listRecords req conn mapping)
  | listed {req : ErpExportRequest} {conn : ErpConnectionRow} {mapping : FieldMapping} {p : Post}
      (taken : ∀ id ∈ p.requests, req.entity = "procurement_request" ∧
        ∃ r ∈ requestedOnly st.db, r.id = id) :
      Ran who input st (.listRecords req conn mapping) (st, .post req p)
  | rejected (req : ErpExportRequest) (p : Post) (detail : String) :
      Ran who input st (.post req p) (st, .logFailure req p detail)
  | posted (req : ErpExportRequest) (p : Post) (resp : Json) :
      Ran who input st (.post req p) ({ st with posts := st.posts ++ [p] }, .mark req p resp)
  | marked (req : ErpExportRequest) (p : Post) (resp : Json) :
      Ran who input st (.mark req p resp)
        ({ st with db := markPosted st.db input.now p resp }, .logSuccess req p)
  | logged {req : ErpExportRequest} {p : Post} (reply : Reply) (erpSyncLog : Table SyncLogRow) :
      Ran who input st (.logSuccess req p)
        ({ st with db := { st.db with erpSyncLog } }, .ended (.ok reply))
  | loggedFailure {req : ErpExportRequest} {p : Post} {detail : String} (e : ApiErr)
      (erpSyncLog : Table SyncLogRow) :
      Ran who input st (.logFailure req p detail)
        ({ st with db := { st.db with erpSyncLog } }, .ended (.error e))
  | ended (reply : Except ApiErr Reply) : Ran who input st (.ended reply) (st, .ended reply)

/-- A statement that marks nothing can be refused at any time. -/
theorem ran_refused (who : ℕ) (input : Input) (st : Store) {ph : Phase}
    (hmarks : ph.marks = false) (e : ApiErr) :
    Ran who input st ph (st.release ph.raised?, .ended (.error e)) := by
  apply Ran.refused
  intro h
  exact absurd (hmarks.symm.trans h) Bool.false_ne_true

theorem ran_commit (who : ℕ) (input : Input) (st : Store) (row : SpareTxnRow) (stock : ℚ)
    (raised : Option ProcurementRow) :
    Ran who input st (.commit row stock raised)
      (commitMovement (st.release raised) row stock raised) := by
  unfold commitMovement
  have hdb : (st.release raised).db = st.db := by cases raised <;> rfl
  rw [hdb]
  cases htxns : st.db.spareTxns.insert? row with
  | none => exact ran_refused who input st rfl _
  | some txns =>
      cases raised with
      | none => exact .moved stock htxns
      | some r =>
          dsimp only
          cases hrequests : st.db.procurementRequests.insert? r with
          | none => exact ran_refused who input st rfl _
          | some requests => exact .reordered stock htxns hrequests

theorem ran_answered (who : ℕ) (input : Input) (st : Store) (req : ErpExportRequest) (p : Post) :
    Ran who input st (.post req p) (answered input st req p) := by
  unfold answered
  split
  · exact .rejected req p _
  · exact .posted req p _

theorem ran_raising (who : ℕ) (input : Input) (st : Store) (row : SpareTxnRow)
    (part : SparePartRow) (stock : ℚ) :
    Ran who input st (.raiseRequest row part stock)
      (run c stockToJson decrypt who input st (.raiseRequest row part stock)) := by
  simp only [run]
  cases hwaits : st.reorders.waits who row.sparePartId with
  | true => exact .waited row part stock
  | false =>
      simp only [Bool.false_eq_true, if_false]
      cases hopen : hasOpenReorder st.db row.sparePartId with
      | true => exact .found part stock hopen
      | false =>
          simp only [Bool.false_eq_true, if_false]
          split
          · exact ran_refused who input st rfl _
          · exact .raised (r := newProcurement row.ts input.id row.sparePartId part.reorderQty
              .reorderPoint) part stock hwaits hopen rfl ⟨rfl, rfl⟩

theorem ran_listing (who : ℕ) (input : Input) (st : Store) (req : ErpExportRequest)
    (conn : ErpConnectionRow) (mapping : FieldMapping) :
    Ran who input st (.listRecords req conn mapping)
      (run c stockToJson decrypt who input st (.listRecords req conn mapping)) := by
  simp only [run]
  cases hrecords : exportRecords c stockToJson st.db req.entity with
  | error e => exact ran_refused who input st rfl _
  | ok res =>
      obtain ⟨canonical, ids⟩ := res
      dsimp only
      cases hpost : preparePost decrypt conn mapping canonical ids with
      | error e => exact ran_refused who input st rfl _
      | ok p =>
          refine .listed ?_
          rw [preparePost_requests hpost]
          exact mem_exportRecords hrecords

theorem ran_rollback (who : ℕ) {input : Input} (hlost : input.lost = true) (st : Store)
    (ph : Phase) : Ran who input st ph (rollback input st ph) := by
  cases ph with
  | post req p => exact ran_answered who input st req p
  | logFailure req p detail => exact .loggedFailure _ st.db.erpSyncLog
  | ended reply => exact .ended reply
  | readThresholds | insertTxn | sumStock | raiseRequest | commit | insertManual | readConnection
  | listRecords | mark | logSuccess => exact .refused _ (fun _ => hlost)

theorem ran_run (who : ℕ) (input : Input) (st : Store) (ph : Phase) :
    Ran who input st ph (run c stockToJson decrypt who input st ph) := by
  cases ph with
  | readThresholds m =>
      simp only [run]
      cases hpart : st.db.spareParts.lookup m.sparePartId with
      | none => exact ran_refused who input st rfl _
      | some part => exact .looked hpart
  | insertTxn m part =>
      simp only [run]
      split
      · exact ran_refused who input st rfl _
      · exact .inserted part rfl
  | sumStock row part =>
      simp only [run]
      cases hbreaches : breaches (spareStock st.db row.sparePartId + numeric row.qty)
          part.reorderPoint part.reorderQty with
      | true => exact .breached rfl
      | false => exact .passed rfl hbreaches
  | raiseRequest row part stock => exact ran_raising who input st row part stock
  | commit row stock raised => exact ran_commit who input st row stock raised
  | insertManual sparePartId qtyRequested =>
      simp only [run]
      cases hcreate : createProcurementRequest st.db input.now input.id sparePartId
          qtyRequested with
      | error e => exact ran_refused who input st rfl _
      | ok res =>
          obtain ⟨db, r⟩ := res
          obtain ⟨hr, requests, hrequests, hdb⟩ := createProcurementRequest_ok hcreate
          obtain rfl : db = _ := hdb
          exact .byHand hrequests (congrArg ProcurementRow.status hr)
            (congrArg ProcurementRow.reason hr)
  | readConnection req =>
      simp only [run]
      cases getConnectionSecret st.db req.connectionId with
      | error e => exact ran_refused who input st rfl _
      | ok conn =>
          dsimp only
          cases exportMapping conn with
          | error e => exact ran_refused who input st rfl _
          | ok mapping => exact .connected req conn mapping
  | listRecords req conn mapping => exact ran_listing who input st req conn mapping
  | post req p => exact ran_answered who input st req p
  | mark req p resp => exact .marked req p resp
  | logSuccess req p =>
      simp only [run]
      split
      · exact ran_refused who input st rfl _
      · rename_i db hlog
        obtain ⟨log, rfl⟩ := insertSyncLog_ok hlog
        exact .logged _ log
  | logFailure req p detail =>
      simp only [run, logFailed]
      split
      · exact .loggedFailure _ st.db.erpSyncLog
      · rename_i db hlog
        obtain ⟨log, rfl⟩ := insertSyncLog_ok hlog
        exact .loggedFailure _ log
  | ended reply => exact .ended reply

/-- Every statement does one of these. -/
theorem ran_exec (who : ℕ) (input : Input) (st : Store) (ph : Phase) :
    Ran who input st ph (exec c stockToJson decrypt who input st ph) := by
  unfold exec
  split
  · rename_i hlost
    exact ran_rollback who hlost st ph
  · exact ran_run who input st ph

end Ran

end ElectronixMes.Maintenance.Procurement
