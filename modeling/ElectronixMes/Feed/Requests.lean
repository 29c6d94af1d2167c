import ElectronixMes.Edge.Ingest
import ElectronixMes.Edge.Process
import ElectronixMes.Db.Repo
import ElectronixMes.Feed.Changes

/-!
# Runs of an edge that publishes

Requests to the edge in any order, with what they write and what they publish. Every request
is a number of changes that its events announce, as long as operations belong to stored orders.
-/

namespace ElectronixMes.Feed

open Db ElectronixMes.Core DncBridge Edge Relational Serde Transition

/-- An edge with everything it has published. -/
structure Floor where
  db : Database
  dnc : TcpDncClient
  published : List WsEvent

/-- A request that writes orders, operations or transfers, or publishes; and requests that
write what the published figures are computed from. The clock, new ids and the state of the
daemon's socket are drawn by the caller. -/
inductive Request where
  | createOrder (c : Codec) (now : Int) (ids : ℕ → String) (input : WorkOrderInput)
  /-- Release, cancel, close and complete an order. -/
  | transition (now : Int) (id : String) (target : WoStatus)
  | startOp (now : Int) (opId : String)
  | recordCount (now snapshotAt : Int) (id opId : String) (input : CountInput)
  | completeOp (socket : Option DncBridgeError) (now : Int) (transferId opId : String)
  | classifyDowntime (now : Int) (auth : AuthUser) (id reasonId : String)
  | splitDowntime (now : Int) (newId : String) (auth : AuthUser) (id : String) (splitAt : Int)
      (firstReason secondReason : Option String)
  | manualTransfer (socket : Option DncBridgeError) (now : Int) (id programId : String)
      (machine woOperationId : Option String)
  | retryTransfer (socket : Option DncBridgeError) (now : Int) (id existingId : String)
  | daemonEvent (now : Int) (id : String) (event : DncEvent)
  | reviewRevision (now : Int) (auth : AuthUser) (id : String) (target : RevisionStatus)
  | recordResult (now : Int) (ids : ℕ → String) (auth : AuthUser) (input : ResultInput)
  | ingest (ids : ℕ → String) (signals : List RawSignal)
  | recompute (workCenterId : String) (start finish : Int) (ids : ℕ → String)
  | deleteWorkCenter (id : String)
  | deleteArea (id : String)
  | deleteSite (id : String)

/-- The database after a request that may fail as a whole. -/
def stored (db : Database) : Except RepoError Database → Database
  | .ok db' => db'
  | .error _ => db

/-- What a request leaves behind, and what it publishes. -/
def serve (db : Database) (dnc : TcpDncClient) :
    Request → (Database × TcpDncClient) × List WsEvent
  | .createOrder c now ids input =>
      ((stored db ((createWorkOrder c db now ids input).map Prod.fst), dnc), [])
  | .transition now id target =>
      let res := Live.transitionWo db now id target
      ((res.1, dnc), res.2.1)
  | .startOp now opId =>
      let res := Live.startOp db now opId
      ((res.1, dnc), res.2.1)
  | .recordCount now snapshotAt id opId input =>
      let res := Live.recordCount db now snapshotAt id opId input
      ((res.1, dnc), res.2.1)
  | .completeOp socket now transferId opId =>
      let res := Live.completeOp db dnc socket now transferId opId
      (res.1, res.2.1)
  | .classifyDowntime now auth id reasonId =>
      let res := Live.classifyDowntime db now auth id reasonId
      ((res.1, dnc), res.2.1)
  | .splitDowntime now newId auth id splitAt firstReason secondReason =>
      let res := Live.splitDowntime db now newId auth id splitAt firstReason secondReason
      ((res.1, dnc), res.2.1)
  | .manualTransfer socket now id programId machine woOperationId =>
      let res := Live.manualTransfer db dnc socket now id programId machine woOperationId
      (res.1, res.2.1)
  | .retryTransfer socket now id existingId =>
      let res := Live.retryTransfer db dnc socket now id existingId
      (res.1, res.2.1)
  | .daemonEvent now id event =>
      let res := Live.handleDaemonEvent db now id event
      ((res.1, dnc), res.2.1)
  | .reviewRevision now auth id target => (((transitionRevision db now auth id target).1, dnc), [])
  | .recordResult now ids auth input =>
      let res := Live.recordResult db now ids auth input
      ((res.1, dnc), res.2.1)
  | .ingest ids signals => (((ingestSignals db ids signals).1, dnc), [])
  | .recompute workCenterId start finish ids =>
      ((afterRecompute db workCenterId start finish ids, dnc), [])
  | .deleteWorkCenter id => ((stored db (Db.deleteWorkCenter db id), dnc), [])
  | .deleteArea id => ((stored db (Db.deleteArea db id), dnc), [])
  | .deleteSite id => ((stored db (Db.deleteSite db id), dnc), [])

def Floor.serve (f : Floor) (r : Request) : Floor :=
  let res := Feed.serve f.db f.dnc r
  ⟨res.1.1, res.1.2, f.published ++ res.2⟩

/-! ## Views of written tables -/

section Views

variable {db db' : Database}

theorem viewOf_congr (horders : db'.workOrders = db.workOrders)
    (hoperations : db'.woOperations = db.woOperations)
    (htransfers : db'.dncTransferEvents = db.dncTransferEvents) : viewOf db' = viewOf db := by
  have hstatus : transferStatus db' = transferStatus db := by
    funext id
    rw [transferStatus, transferStatus, htransfers]
  simp only [viewOf, horders, hoperations, hstatus]

/-- A write that spares these tables is announced by nothing, or by events about something
else. -/
theorem changes_of_spared (horders : db'.workOrders = db.workOrders)
    (hoperations : db'.woOperations = db.woOperations)
    (htransfers : db'.dncTransferEvents = db.dncTransferEvents) {events : List WsEvent}
    (hevents : ∀ e ∈ events, Elsewhere e) : Changes (viewOf db) events (viewOf db') := by
  rw [viewOf_congr horders hoperations htransfers]
  exact (Change.elsewhere hevents).changes

theorem changes_same (db : Database) : Changes (viewOf db) [] (viewOf db) := .refl

theorem viewOf_put_order (r : WorkOrderRow) :
    viewOf { db with workOrders := db.workOrders.put r } =
      { viewOf db with orders := Function.update (viewOf db).orders r.id (some r.status) } := by
  have horders : (fun id => ((db.workOrders.put r).lookup id).map WorkOrderRow.status) =
      Function.update (viewOf db).orders r.id (some r.status) := by
    funext id
    rw [Table.lookup_put]
    by_cases hid : id = r.id <;> simp [hid, viewOf]
  rw [← horders]
  rfl

/-- An operation that is written stays with its order. -/
theorem viewOf_put_operation {old : WoOperationRow} {opId : String}
    (hold : db.woOperations.lookup opId = some old) (new : WoOperationRow) (hid : new.id = old.id)
    (hparent : new.workOrderId = old.workOrderId) :
    viewOf { db with woOperations := db.woOperations.put new } =
      { viewOf db with
        operations := Function.update (viewOf db).operations opId (some (progressOf new)) } := by
  obtain ⟨-, rfl⟩ := Table.lookup_eq_some.mp hold
  have hkey : Keyed.key new = old.id := hid
  have hoperations : (fun id => ((db.woOperations.put new).lookup id).map progressOf) =
      Function.update (viewOf db).operations old.id (some (progressOf new)) := by
    funext id
    rw [Table.lookup_put, hkey]
    by_cases heq : id = old.id <;> simp [heq, viewOf]
  have hparents : (fun id => ((db.woOperations.put new).lookup id).map
      WoOperationRow.workOrderId) = (viewOf db).parents := by
    funext id
    rw [Table.lookup_put, hkey]
    by_cases heq : id = old.id
    · have hlookup : db.woOperations.lookup old.id = some old := hold
      simp [heq, viewOf, hlookup, hparent]
    · simp [heq, viewOf]
  change View.mk _ _ _ _ = View.mk _ _ _ _
  rw [← hparents]
  exact congrArg (fun o => View.mk _ o _ _) hoperations

theorem viewOf_put_transfer (t : TransferRow) :
    viewOf { db with dncTransferEvents := db.dncTransferEvents.put t } =
      { viewOf db with
        transfers := Function.update (viewOf db).transfers t.id (some t.status) } := by
  have htransfers : transferStatus { db with dncTransferEvents := db.dncTransferEvents.put t } =
      Function.update (transferStatus db) t.id (some t.status) := by
    funext id
    rw [transferStatus_put]
    by_cases hid : id = t.id <;> simp [hid]
  exact congrArg (fun m => View.mk _ _ _ m) htransfers

theorem viewOf_insert_transfer {t : TransferRow} {transfers : Table TransferRow}
    (h : db.dncTransferEvents.insert? t = some transfers) :
    viewOf { db with dncTransferEvents := transfers } =
      { viewOf db with
        transfers := Function.update (viewOf db).transfers t.id (some t.status) } := by
  have htransfers : transferStatus { db with dncTransferEvents := transfers } =
      Function.update (transferStatus db) t.id (some t.status) := by
    funext id
    rw [transferStatus_insert h]
    by_cases hid : id = t.id <;> simp [hid]
  exact congrArg (fun m => View.mk _ _ _ m) htransfers

end Views

/-! ## Every request is announced -/

section Requests

variable {db : Database} {dnc : TcpDncClient} {socket : Option DncBridgeError} {now : Int}

theorem createWorkOrder_transfers {c : Codec} {ids : ℕ → String} {input : WorkOrderInput}
    {res : Database × WorkOrderRow} (h : createWorkOrder c db now ids input = .ok res) :
    res.1.dncTransferEvents = db.dncTransferEvents := by
  unfold createWorkOrder at h
  dsimp only at h
  split at h
  · cases h
  · rename_i mid hmid
    obtain ⟨workOrders, -, -, -, rfl⟩ := insertWorkOrder_ok hmid
    split at h
    · cases h
    · rename_i ops hops
      obtain ⟨hframe, -, -⟩ := insertOperations_ok hops
      cases henq : enqueue ops (ids (input.operations.length + 1)) "work_order" (ids 0) "upsert"
          (orderPayload c (ids 0) input) none now with
      | error e =>
          rw [henq] at h
          cases h
      | ok final =>
          rw [henq] at h
          cases h
          obtain ⟨outbox, -, rfl⟩ := enqueue_ok henq
          rw [hframe]

theorem createOrder_changes {c : Codec} {ids : ℕ → String} {input : WorkOrderInput}
    {res : Database × WorkOrderRow} (h : createWorkOrder c db now ids input = .ok res) :
    Changes (viewOf db) [] (viewOf res.1) := by
  obtain ⟨hrow, -, -, hins, -, -, -, -, hkept, hnew⟩ := createWorkOrder_ok h
  have hrowid : res.2.id = ids 0 := congrArg WorkOrderRow.id hrow
  have hstatus : res.2.status = "draft" := congrArg WorkOrderRow.status hrow
  have hlookup (id : String) : (viewOf res.1).orders id =
      if id = res.2.id then some "draft" else (viewOf db).orders id := by
    change (res.1.workOrders.lookup id).map WorkOrderRow.status = _
    rw [Table.lookup_insert? hins, apply_ite (Option.map WorkOrderRow.status), Option.map_some,
      hstatus]
    rfl
  have hop (id : String) : res.1.woOperations.lookup id = db.woOperations.lookup id ∨
      db.woOperations.lookup id = none ∧
        ∃ o, NewOperation (ids 0) o ∧ res.1.woOperations.lookup id = some o := by
    cases hold : db.woOperations.lookup id with
    | some o =>
        obtain ⟨hmem, rfl⟩ := Table.lookup_eq_some.mp hold
        exact Or.inl (Table.lookup_of_mem (hkept o hmem))
    | none =>
        cases hthere : res.1.woOperations.lookup id with
        | none => exact Or.inl rfl
        | some o =>
            obtain ⟨hmem, hid⟩ := Table.lookup_eq_some.mp hthere
            rcases hnew o hmem with hmem' | hfresh
            · exact absurd hid (Table.lookup_eq_none.mp hold o hmem')
            · exact Or.inr ⟨rfl, o, hfresh, rfl⟩
  have htransfers := createWorkOrder_transfers h
  apply Change.changes
  apply Change.created
  · intro id
    rw [hlookup]
    split
    · rename_i hid
      refine Or.inr ⟨?_, rfl⟩
      rw [hid]
      exact congrArg (Option.map WorkOrderRow.status) (Table.lookup_of_insert? hins)
    · exact Or.inl rfl
  · intro id
    rcases hop id with hsame | ⟨hnone, o, hfresh, hthere⟩
    · exact Or.inl (congrArg (Option.map progressOf) hsame)
    · refine Or.inr ⟨congrArg (Option.map progressOf) hnone, ?_⟩
      simp [viewOf, hthere, progressOf, untouched, hfresh.status, hfresh.qtyGood, hfresh.qtyScrap]
  · intro id
    rcases hop id with hsame | ⟨-, o, hfresh, hthere⟩
    · exact Or.inl (congrArg (Option.map WoOperationRow.workOrderId) hsame)
    · refine Or.inr ?_
      intro workOrderId hparent
      have heq : o.workOrderId = workOrderId := by simpa [viewOf, hthere] using hparent
      rw [hlookup, if_pos (by rw [← heq, hfresh.workOrderId, hrowid])]
      rfl
  · funext id
    exact congrArg (fun t : Table TransferRow => (t.lookup id).map TransferRow.status) htransfers

/-- An admitted transition of a stored order. -/
theorem transitionWo_of_stored (db : Database) (now : Int) {old : WorkOrderRow} {id : String}
    {current target : WoStatus} (hold : db.workOrders.lookup id = some old)
    (hparse : WoStatus.parse old.status = some current)
    (hcan : current.canTransition target = true) :
    Live.transitionWo db now id target =
      ({ db with workOrders := db.workOrders.put (old.withStatus target.asStr now) },
        [.workOrderStatusChanged id target.asStr], .ok (old.withStatus target.asStr now)) := by
  simp only [Live.transitionWo, Edge.transitionWo, getWorkOrder, setWorkOrderStatus, hold, hparse,
    hcan, if_true]

theorem put_order_change {old : WorkOrderRow} {id : String}
    (hold : db.workOrders.lookup id = some old) (status : String) (now : Int) :
    Change (viewOf db) [.workOrderStatusChanged id status]
      (viewOf { db with workOrders := db.workOrders.put (old.withStatus status now) }) := by
  obtain ⟨-, rfl⟩ := Table.lookup_eq_some.mp hold
  rw [viewOf_put_order]
  exact Change.moved

theorem transitionWo_changes (id : String) (target : WoStatus) :
    Changes (viewOf db) (Live.transitionWo db now id target).2.1
      (viewOf (Live.transitionWo db now id target).1) := by
  cases hold : db.workOrders.lookup id with
  | none =>
      simp only [Live.transitionWo, Edge.transitionWo, getWorkOrder, hold]
      exact changes_same db
  | some old =>
      cases hparse : WoStatus.parse old.status with
      | none =>
          simp only [Live.transitionWo, Edge.transitionWo, getWorkOrder, hold, hparse]
          exact changes_same db
      | some current =>
          by_cases hcan : current.canTransition target = true
          · rw [transitionWo_of_stored db now hold hparse hcan]
            exact (put_order_change hold target.asStr now).changes
          · simp only [Live.transitionWo, Edge.transitionWo, getWorkOrder, hold, hparse, hcan]
            exact changes_same db

theorem viewOf_operations {op : WoOperationRow} {opId : String}
    (hop : db.woOperations.lookup opId = some op) :
    (viewOf db).operations opId = some (progressOf op) :=
  congrArg (Option.map progressOf) hop

theorem put_started_change {op : WoOperationRow} {opId : String}
    (hop : db.woOperations.lookup opId = some op) (now : Int) (workOrderId : String) :
    Change (viewOf db) [.operationStarted workOrderId opId]
      (viewOf { db with woOperations := db.woOperations.put (op.started now) }) := by
  rw [viewOf_put_operation hop (op.started now) rfl rfl]
  exact Change.started (viewOf_operations hop)

theorem put_completed_change {op : WoOperationRow} {opId : String}
    (hop : db.woOperations.lookup opId = some op) (now : Int) (workOrderId : String) :
    Change (viewOf db) [.operationCompleted workOrderId opId]
      (viewOf { db with woOperations := db.woOperations.put (op.completed now) }) := by
  rw [viewOf_put_operation hop (op.completed now) rfl rfl]
  exact Change.completed (viewOf_operations hop)

/-- A count is announced with what it adds. -/
theorem put_counted_change {op op' : WoOperationRow} {opId : String} {good scrap : Int32}
    (hop : db.woOperations.lookup opId = some op) (hadd : addCount op good scrap = .ok op') :
    Change (viewOf db) [.countRecorded opId good scrap]
      (viewOf { db with woOperations := db.woOperations.put op' }) := by
  obtain ⟨hframe, hgood, hscrap⟩ := addCount_ok hadd
  have hcounted : progressOf op' = (progressOf op).counted good scrap := by
    rw [Progress.counted, progressOf, hgood, hscrap, hframe]
    rfl
  rw [viewOf_put_operation hop op' (by rw [hframe]) (by rw [hframe]), hcounted]
  exact Change.counted (viewOf_operations hop)

/-- The order of the operation is there, so a start that is written is announced. -/
theorem startOp_changes (h : Parented (viewOf db)) (opId : String) :
    Changes (viewOf db) (Live.startOp db now opId).2.1 (viewOf (Live.startOp db now opId).1) := by
  unfold Live.startOp getOperation startOperation
  cases hop : db.woOperations.lookup opId with
  | none => exact changes_same db
  | some op =>
      dsimp only
      cases OpStatus.parse op.status with
      | none => exact changes_same db
      | some status =>
          dsimp only
          by_cases hcan : status.canTransition .inProgress = true
          · have hstored : ((viewOf db).orders op.workOrderId).isSome :=
              h opId op.workOrderId (congrArg (Option.map WoOperationRow.workOrderId) hop)
            cases hwo : db.workOrders.lookup op.workOrderId with
            | none => simp [viewOf, hwo] at hstored
            | some wo =>
                rw [if_pos hcan]
                simp only [getWorkOrder, hwo]
                by_cases hreleased : WoStatus.parse wo.status = some .released
                · have hmoved := transitionWo_of_stored
                    { db with woOperations := db.woOperations.put (op.started now) } now hwo
                    hreleased (rfl : WoStatus.released.canTransition .inProgress = true)
                  rw [if_pos hreleased, hmoved]
                  -- the two writes are of different tables, so their order is free
                  have horder := put_order_change hwo WoStatus.inProgress.asStr now
                  have hstart := @put_started_change
                    { db with
                      workOrders := db.workOrders.put
                        (wo.withStatus WoStatus.inProgress.asStr now) } op opId hop now
                    op.workOrderId
                  exact horder.changes.snoc hstart
                · rw [if_neg hreleased]
                  exact (put_started_change hop now op.workOrderId).changes
          · rw [if_neg hcan]
            exact changes_same db

theorem scheduleTransfer_changes (id : String) (r : TransferRequest) :
    Changes (viewOf db) (Live.scheduleTransfer db dnc socket now id r).2.1
      (viewOf (Live.scheduleTransfer db dnc socket now id r).1.1) := by
  cases socket with
  | some e => exact changes_same db
  | none =>
      simp only [Live.scheduleTransfer, Edge.scheduleTransfer, TcpDncClient.send]
      cases hcreate : createTransfer db now id r.woOperationId r.programId
          TransferDirection.toMachine.asStr (some (TcpDncClient.reference dnc.counter)) with
      | error e => exact changes_same db
      | ok res =>
          obtain ⟨transfers, hins, hdb, -, -, hstatus⟩ := createTransfer_ok hcreate
          dsimp only
          rw [hdb, viewOf_insert_transfer hins, hstatus]
          exact (Change.scheduled (transferStatus_of_insert hins)).changes

theorem completeOp_changes (transferId opId : String) :
    Changes (viewOf db) (Live.completeOp db dnc socket now transferId opId).2.1
      (viewOf (Live.completeOp db dnc socket now transferId opId).1.1) := by
  unfold Live.completeOp getOperation completeOperation
  cases hop : db.woOperations.lookup opId with
  | none => exact changes_same db
  | some op =>
      dsimp only
      cases OpStatus.parse op.status with
      | none => exact changes_same db
      | some status =>
          dsimp only
          by_cases hcan : status.canTransition .completed = true
          · rw [if_pos hcan]
            have hdone := (put_completed_change hop now op.workOrderId).changes
            dsimp only [Live.onJobComplete]
            cases resolveNextTransfer
                { db with woOperations := db.woOperations.put (op.completed now) } opId with
            | none => exact hdone
            | some next => exact hdone.trans (scheduleTransfer_changes transferId _)
          · rw [if_neg hcan]
            exact changes_same db

theorem elsewhere_oeeSnapshot (workCenterId : String) :
    ∀ e ∈ Live.publishOeeSnapshot db now workCenterId, Elsewhere e := by
  unfold Live.publishOeeSnapshot
  cases oeeInputs db workCenterId (dayOf now) now with
  | error e => exact fun e he => absurd he List.not_mem_nil
  | ok inputs =>
      intro e he
      obtain rfl := List.mem_singleton.mp he
      trivial

theorem recordCount_changes (snapshotAt : Int) (id opId : String) (input : CountInput) :
    Changes (viewOf db) (Live.recordCount db now snapshotAt id opId input).2.1
      (viewOf (Live.recordCount db now snapshotAt id opId input).1) := by
  unfold Live.recordCount Edge.recordCount getOperation
  cases input.check with
  | error e => exact changes_same db
  | ok _ =>
      dsimp only
      cases hop : db.woOperations.lookup opId with
      | none => exact changes_same db
      | some op =>
          dsimp only
          cases op.workCenterId with
          | none => exact changes_same db
          | some wcId =>
              dsimp only [Db.recordCount]
              cases insertCount db (countRow id opId wcId input.good input.scrap
                  input.scrapReasonId (input.ts.getD now)) with
              | error e => exact changes_same db
              | ok productionCounts =>
                  simp only [hop]
                  cases hadd : addCount op input.good input.scrap with
                  | error e => exact changes_same db
                  | ok op' =>
                      have hcounted := put_counted_change hop hadd
                      have hview := @viewOf_congr
                        { db with woOperations := db.woOperations.put op' }
                        { db with productionCounts, woOperations := db.woOperations.put op' }
                        rfl rfl rfl
                      dsimp only
                      rw [hview]
                      refine hcounted.changes.snoc (Change.elsewhere ?_)
                      intro e he
                      obtain ⟨wc, -, he⟩ := List.mem_flatMap.mp he
                      exact elsewhere_oeeSnapshot wc e he

theorem manualTransfer_changes (id programId : String) (machine woOperationId : Option String) :
    Changes (viewOf db)
      (Live.manualTransfer db dnc socket now id programId machine woOperationId).2.1
      (viewOf (Live.manualTransfer db dnc socket now id programId machine woOperationId).1.1) := by
  unfold Live.manualTransfer
  cases programDispatchInfo db programId with
  | none => exact changes_same db
  | some info => exact scheduleTransfer_changes id _

theorem retryTransfer_changes (id existingId : String) :
    Changes (viewOf db) (Live.retryTransfer db dnc socket now id existingId).2.1
      (viewOf (Live.retryTransfer db dnc socket now id existingId).1.1) := by
  unfold Live.retryTransfer
  cases getTransfer db existingId with
  | error e => exact changes_same db
  | ok existing =>
      dsimp only
      cases programDispatchInfo db existing.programId with
      | none => exact changes_same db
      | some info => exact scheduleTransfer_changes id _

theorem createDraftRevision_frame {id programId source : String}
    {contentRef submittedBy : Option String} {res : Database × RevisionRow}
    (h : createDraftRevision db now id programId source contentRef submittedBy = .ok res) :
    ∃ revisions, res.1 = { db with programRevisions := revisions } := by
  unfold createDraftRevision at h
  split at h
  · cases h
  · rename_i revisionNo _
    cases hins : insertDraftRevision db now id programId revisionNo source contentRef
        submittedBy with
    | error e =>
        rw [hins] at h
        cases h
    | ok _ =>
        rw [hins] at h
        cases h
        obtain ⟨revisions, -, hframe, -⟩ := insertDraftRevision_ok hins
        exact ⟨revisions, hframe⟩

/-- Only a transfer that is still open is closed. -/
theorem daemonEvent_changes (id : String) (event : DncEvent) :
    Changes (viewOf db) (Live.handleDaemonEvent db now id event).2.1
      (viewOf (Live.handleDaemonEvent db now id event).1) := by
  have hstored {reference : String} {t : TransferRow}
      (hfind : findOpenTransferByRef db reference = some t) :
      db.dncTransferEvents.lookup t.id = some t ∧ t.status ≠ "completed" :=
    ⟨Table.lookup_of_mem (findOpenTransferByRef_some hfind).1,
      (findOpenTransferByRef_some hfind).2.2.1.1⟩
  have hstatus {t : TransferRow} (ht : db.dncTransferEvents.lookup t.id = some t) :
      (viewOf db).transfers t.id = some t.status := congrArg (Option.map TransferRow.status) ht
  cases event with
  | transferCompleted reference =>
      dsimp only [Live.handleDaemonEvent]
      cases hfind : findOpenTransferByRef db reference with
      | none => exact changes_same db
      | some t =>
          obtain ⟨ht, -⟩ := hstored hfind
          simp only [setTransferStatus, ht]
          rw [viewOf_put_transfer]
          exact (Change.transferred (hstatus ht)).changes
  | transferFailed reference error =>
      dsimp only [Live.handleDaemonEvent, closeTransfer]
      cases hfind : findOpenTransferByRef db reference with
      | none => exact changes_same db
      | some t =>
          obtain ⟨ht, hopen⟩ := hstored hfind
          simp only [setTransferStatus, ht]
          rw [viewOf_put_transfer]
          exact (Change.failed (hstatus ht) hopen).changes
  | programReceived program contentRef =>
      dsimp only [Live.handleDaemonEvent]
      cases findProgramIdByIdentifier db program with
      | none => exact changes_same db
      | some programId =>
          dsimp only
          cases hdraft : createDraftRevision db now id programId "operator_edit" contentRef
              none with
          | error e => exact changes_same db
          | ok res =>
              obtain ⟨revisions, hframe⟩ := createDraftRevision_frame hdraft
              dsimp only
              rw [hframe]
              refine changes_of_spared rfl rfl rfl ?_
              intro e he
              obtain rfl := List.mem_singleton.mp he
              trivial

theorem classifyDowntime_changes (auth : AuthUser) (id reasonId : String) :
    Changes (viewOf db) (Live.classifyDowntime db now auth id reasonId).2.1
      (viewOf (Live.classifyDowntime db now auth id reasonId).1) := by
  unfold Live.classifyDowntime
  cases hok : Db.classifyDowntime db id reasonId auth.userId now with
  | error e => exact changes_same db
  | ok res =>
      obtain ⟨old, -, -, -, -, -, hframe⟩ := classifyDowntime_ok hok
      dsimp only
      rw [hframe]
      refine changes_of_spared rfl rfl rfl ?_
      intro e he
      obtain rfl := List.mem_singleton.mp he
      trivial

theorem elsewhere_classified (r : DowntimeEventRow) : ∀ e ∈ Live.classified r, Elsewhere e := by
  intro e he
  obtain ⟨reason, -, rfl⟩ := Option.map_eq_some_iff.mp (Option.mem_toList.mp he)
  trivial

theorem splitDowntime_changes (newId : String) (auth : AuthUser) (id : String) (splitAt : Int)
    (firstReason secondReason : Option String) :
    Changes (viewOf db)
      (Live.splitDowntime db now newId auth id splitAt firstReason secondReason).2.1
      (viewOf (Live.splitDowntime db now newId auth id splitAt firstReason secondReason).1) := by
  unfold Live.splitDowntime
  cases hok : Db.splitDowntime db id splitAt firstReason secondReason auth.userId newId now with
  | error e => exact changes_same db
  | ok res =>
      obtain ⟨old, -, events, -, -, -, -, -, hframe⟩ := splitDowntime_ok hok
      dsimp only
      rw [hframe]
      refine changes_of_spared rfl rfl rfl ?_
      intro e he
      rcases List.mem_append.mp he with he | he
      · exact elsewhere_classified _ e he
      · exact elsewhere_classified _ e he

theorem recordResult_changes (ids : ℕ → String) (auth : AuthUser) (input : ResultInput) :
    Changes (viewOf db) (Live.recordResult db now ids auth input).2.1
      (viewOf (Live.recordResult db now ids auth input).1) := by
  unfold Live.recordResult Edge.recordResult
  cases hok : Db.recordResult db now ids input auth.userId with
  | error e => exact changes_same db
  | ok res =>
      have hraised : ∀ e ∈ (res.2.2.map fun n => WsEvent.ncrRaised n.id n.ncrNo n.lotId).toList,
          Elsewhere e := by
        intro e he
        obtain ⟨n, -, rfl⟩ := Option.map_eq_some_iff.mp (Option.mem_toList.mp he)
        trivial
      obtain ⟨results, -, hframe | ⟨n, ncrs, -, -, -, -, hframe, -, -⟩⟩ := recordResult_ok hok
      · dsimp only
        rw [hframe]
        exact changes_of_spared rfl rfl rfl hraised
      · dsimp only
        rw [hframe]
        exact changes_of_spared rfl rfl rfl hraised

/-- Nothing is published and nothing of the view is written. -/
theorem changes_of_unseen {db' : Database} (horders : db'.workOrders = db.workOrders)
    (hoperations : db'.woOperations = db.woOperations)
    (htransfers : db'.dncTransferEvents = db.dncTransferEvents) :
    Changes (viewOf db) [] (viewOf db') :=
  changes_of_spared horders hoperations htransfers fun _ he => absurd he List.not_mem_nil

theorem reviewRevision_changes (auth : AuthUser) (id : String) (target : RevisionStatus) :
    Changes (viewOf db) [] (viewOf (transitionRevision db now auth id target).1) := by
  unfold transitionRevision
  split
  · split
    · exact changes_same db
    · split
      · exact changes_same db
      · split
        · cases hok : setRevisionStatus db now id target.asStr auth.userId with
          | error e => exact changes_same db
          | ok res =>
              obtain ⟨r, -, hframe, -⟩ := setRevisionStatus_ok hok
              dsimp only
              rw [hframe]
              exact changes_of_unseen rfl rfl rfl
        · exact changes_same db
  · exact changes_same db

theorem ingestLoop_changes (ids : ℕ → String) (signals : List RawSignal) (st : Intake) :
    Changes (viewOf st.db) [] (viewOf (ingestLoop ids st signals).1) := by
  induction signals generalizing st with
  | nil => exact changes_same st.db
  | cons sig rest ih =>
      rw [ingestLoop]
      cases hround : st.ingest ids sig with
      | error e => exact changes_same st.db
      | ok next =>
          have hfirst : Changes (viewOf st.db) [] (viewOf next.db) := by
            unfold Intake.ingest at hround
            dsimp only at hround
            split at hround
            · cases hround
              exact changes_same st.db
            · split at hround
              · cases hround
              · rename_i hstore
                cases hround
                rcases storeSignal_cases hstore with ⟨_, -, -, rfl⟩ | ⟨_, _, _, -, -, rfl⟩
                · exact changes_of_unseen rfl rfl rfl
                · exact changes_of_unseen rfl rfl rfl
          exact hfirst.trans (ih next)

theorem recompute_changes (workCenterId : String) (start finish : Int) (ids : ℕ → String) :
    Changes (viewOf db) [] (viewOf (afterRecompute db workCenterId start finish ids)) := by
  unfold afterRecompute
  split
  · rename_i hok
    obtain ⟨-, -, hframe, -⟩ := recomputeStates_ok hok
    rw [hframe]
    exact changes_of_unseen rfl rfl rfl
  · exact changes_same db

/-- A delete of work centers, and what else goes with it. -/
theorem cascade_changes {gone : String → Bool} {f : Database → Database}
    (hf : ∀ d, (f d).workOrders = d.workOrders ∧ (f d).woOperations = d.woOperations ∧
      (f d).dncTransferEvents = d.dncTransferEvents) :
    Changes (viewOf db) [] (viewOf (stored db ((cascadeWorkCenters db gone).map f))) := by
  unfold cascadeWorkCenters
  split
  · exact changes_same db
  · split
    · exact changes_same db
    · split
      · exact changes_same db
      · exact changes_of_unseen (hf _).1 (hf _).2.1 (hf _).2.2

theorem deleteWorkCenter_changes (id : String) :
    Changes (viewOf db) [] (viewOf (stored db (Db.deleteWorkCenter db id))) := by
  unfold Db.deleteWorkCenter
  split
  · exact changes_same db
  · have hcascade := @cascade_changes db (· = id) (fun d => d) fun _ => ⟨rfl, rfl, rfl⟩
    cases hwc : cascadeWorkCenters db (· = id) with
    | error e => exact changes_same db
    | ok mid =>
        rw [hwc] at hcascade
        exact hcascade

theorem deleteArea_changes (id : String) :
    Changes (viewOf db) [] (viewOf (stored db (Db.deleteArea db id))) := by
  unfold Db.deleteArea
  split
  · exact changes_same db
  · exact cascade_changes fun _ => ⟨rfl, rfl, rfl⟩

theorem deleteSite_changes (id : String) :
    Changes (viewOf db) [] (viewOf (stored db (Db.deleteSite db id))) := by
  unfold Db.deleteSite
  split
  · exact cascade_changes fun _ => ⟨rfl, rfl, rfl⟩
  · exact changes_same db

end Requests

/-! ## Runs -/

/-- What a request publishes announces what it changes. -/
theorem serve_changes (db : Database) (dnc : TcpDncClient) (h : Parented (viewOf db))
    (r : Request) : Changes (viewOf db) (serve db dnc r).2 (viewOf (serve db dnc r).1.1) := by
  cases r with
  | createOrder c now ids input =>
      simp only [serve]
      cases hok : createWorkOrder c db now ids input with
      | error e => exact changes_same db
      | ok res => exact createOrder_changes hok
  | transition now id target => exact transitionWo_changes id target
  | startOp now opId => exact startOp_changes h opId
  | recordCount now snapshotAt id opId input => exact recordCount_changes snapshotAt id opId input
  | completeOp socket now transferId opId => exact completeOp_changes transferId opId
  | classifyDowntime now auth id reasonId => exact classifyDowntime_changes auth id reasonId
  | splitDowntime now newId auth id splitAt firstReason secondReason =>
      exact splitDowntime_changes newId auth id splitAt firstReason secondReason
  | manualTransfer socket now id programId machine woOperationId =>
      exact manualTransfer_changes id programId machine woOperationId
  | retryTransfer socket now id existingId => exact retryTransfer_changes id existingId
  | daemonEvent now id event => exact daemonEvent_changes id event
  | reviewRevision now auth id target => exact reviewRevision_changes auth id target
  | recordResult now ids auth input => exact recordResult_changes ids auth input
  | ingest ids signals =>
      exact ingestLoop_changes ids signals
        { db, cache := fun _ => none, accepted := 0, dropped := 0 }
  | recompute workCenterId start finish ids => exact recompute_changes workCenterId start finish ids
  | deleteWorkCenter id => exact deleteWorkCenter_changes id
  | deleteArea id => exact deleteArea_changes id
  | deleteSite id => exact deleteSite_changes id

end ElectronixMes.Feed
