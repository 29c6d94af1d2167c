import ElectronixMes.Db.RepoAnalytics
import ElectronixMes.Db.RepoOee
import ElectronixMes.Edge.Dnc
import ElectronixMes.Edge.Exec
import ElectronixMes.Edge.Quality
import ElectronixMes.Serde.Tagged
import ElectronixMes.Serde.Text
import ElectronixMes.Transition.Broadcast

/-!
# The live feed (crates/mes-client/src/ws.rs, crates/mes-edge/src/ws.rs)

The handlers of the edge with the events they publish, and the loop that forwards every event
to a client of `/ws` as one JSON text. A handler that publishes on its last, successful branch
only is its version without events, next to what it publishes; the others are written out.
-/

namespace ElectronixMes.Edge

open Db ElectronixMes.Core DncBridge Relational Serde Transition

/-- A live event. -/
inductive WsEvent where
  | workOrderStatusChanged (workOrderId status : String)
  | operationStarted (workOrderId woOperationId : String)
  | operationCompleted (workOrderId woOperationId : String)
  | countRecorded (woOperationId : String) (good scrap : Int32)
  | downtimeClassified (downtimeEventId reasonId : String)
  | dncTransferScheduled (transferId programId programIdentifier : String)
      (woOperationId : Option String)
  | dncTransferCompleted (transferId : String)
  | programRevisionDrafted (revisionId programId : String)
  | oeeSnapshot (workCenterId : String) (availability performance quality oee : ℚ)
  | ncrRaised (ncrId ncrNo : String) (lotId : Option String)
  deriving DecidableEq

/-! ## Events as texts -/

namespace WsEvent

/-- The members of an event's object, the tag first. -/
def members : WsEvent → List (String × Json)
  | workOrderStatusChanged workOrderId status =>
      [("event", .str "work_order_status_changed"), ("work_order_id", .str workOrderId),
        ("status", .str status)]
  | operationStarted workOrderId woOperationId =>
      [("event", .str "operation_started"), ("work_order_id", .str workOrderId),
        ("wo_operation_id", .str woOperationId)]
  | operationCompleted workOrderId woOperationId =>
      [("event", .str "operation_completed"), ("work_order_id", .str workOrderId),
        ("wo_operation_id", .str woOperationId)]
  | countRecorded woOperationId good scrap =>
      [("event", .str "count_recorded"), ("wo_operation_id", .str woOperationId),
        ("good", .int good.toInt), ("scrap", .int scrap.toInt)]
  | downtimeClassified downtimeEventId reasonId =>
      [("event", .str "downtime_classified"), ("downtime_event_id", .str downtimeEventId),
        ("reason_id", .str reasonId)]
  | dncTransferScheduled transferId programId programIdentifier woOperationId =>
      [("event", .str "dnc_transfer_scheduled"), ("transfer_id", .str transferId),
        ("program_id", .str programId), ("program_identifier", .str programIdentifier),
        ("wo_operation_id", optStringToJson woOperationId)]
  | dncTransferCompleted transferId =>
      [("event", .str "dnc_transfer_completed"), ("transfer_id", .str transferId)]
  | programRevisionDrafted revisionId programId =>
      [("event", .str "program_revision_drafted"), ("revision_id", .str revisionId),
        ("program_id", .str programId)]
  | oeeSnapshot workCenterId availability performance quality oee =>
      [("event", .str "oee_snapshot"), ("work_center_id", .str workCenterId),
        ("availability", .float availability), ("performance", .float performance),
        ("quality", .float quality), ("oee", .float oee)]
  | ncrRaised ncrId ncrNo lotId =>
      [("event", .str "ncr_raised"), ("ncr_id", .str ncrId), ("ncr_no", .str ncrNo),
        ("lot_id", optStringToJson lotId)]

/-- A number; an integer is one, too. -/
def asFloat : Json → Option ℚ
  | .float x => some x
  | .int n => some n
  | _ => none

/-- Read an event; the members may stand in any order and next to others. -/
def fromJson (v : Json) : Option WsEvent :=
  match tagged "event" v with
  | some ("work_order_status_changed", body) => do
      let workOrderId ← body.required "work_order_id" 0 Json.asString
      let status ← body.required "status" 1 Json.asString
      body.ended 2 (.workOrderStatusChanged workOrderId status)
  | some ("operation_started", body) => do
      let workOrderId ← body.required "work_order_id" 0 Json.asString
      let woOperationId ← body.required "wo_operation_id" 1 Json.asString
      body.ended 2 (.operationStarted workOrderId woOperationId)
  | some ("operation_completed", body) => do
      let workOrderId ← body.required "work_order_id" 0 Json.asString
      let woOperationId ← body.required "wo_operation_id" 1 Json.asString
      body.ended 2 (.operationCompleted workOrderId woOperationId)
  | some ("count_recorded", body) => do
      let woOperationId ← body.required "wo_operation_id" 0 Json.asString
      let good ← body.required "good" 1 Json.asInt32
      let scrap ← body.required "scrap" 2 Json.asInt32
      body.ended 3 (.countRecorded woOperationId good scrap)
  | some ("downtime_classified", body) => do
      let downtimeEventId ← body.required "downtime_event_id" 0 Json.asString
      let reasonId ← body.required "reason_id" 1 Json.asString
      body.ended 2 (.downtimeClassified downtimeEventId reasonId)
  | some ("dnc_transfer_scheduled", body) => do
      let transferId ← body.required "transfer_id" 0 Json.asString
      let programId ← body.required "program_id" 1 Json.asString
      let programIdentifier ← body.required "program_identifier" 2 Json.asString
      let woOperationId ← body.optional "wo_operation_id" 3 Json.asString
      body.ended 4 (.dncTransferScheduled transferId programId programIdentifier woOperationId)
  | some ("dnc_transfer_completed", body) => do
      let transferId ← body.required "transfer_id" 0 Json.asString
      body.ended 1 (.dncTransferCompleted transferId)
  | some ("program_revision_drafted", body) => do
      let revisionId ← body.required "revision_id" 0 Json.asString
      let programId ← body.required "program_id" 1 Json.asString
      body.ended 2 (.programRevisionDrafted revisionId programId)
  | some ("oee_snapshot", body) => do
      let workCenterId ← body.required "work_center_id" 0 Json.asString
      let availability ← body.required "availability" 1 asFloat
      let performance ← body.required "performance" 2 asFloat
      let quality ← body.required "quality" 3 asFloat
      let oee ← body.required "oee" 4 asFloat
      body.ended 5 (.oeeSnapshot workCenterId availability performance quality oee)
  | some ("ncr_raised", body) => do
      let ncrId ← body.required "ncr_id" 0 Json.asString
      let ncrNo ← body.required "ncr_no" 1 Json.asString
      let lotId ← body.optional "lot_id" 2 Json.asString
      body.ended 3 (.ncrRaised ncrId ncrNo lotId)
  | _ => none

/-- What is read of an event: its figures are those that their texts are read as. -/
def reread (ft : FloatText) : WsEvent → WsEvent
  | oeeSnapshot workCenterId availability performance quality oee =>
      oeeSnapshot workCenterId (ft.reread availability) (ft.reread performance)
        (ft.reread quality) (ft.reread oee)
  | event => event

end WsEvent

section Frames

variable (ft : FloatText)

/-- The text frame of an event. -/
def frameOf (event : WsEvent) : List Char := render ft (.obj event.members)

/-- The event of a text frame, as a client reads it. -/
def readFrame (frame : List Char) : Option WsEvent := (parse ft frame).bind WsEvent.fromJson

/-- The size of the channel between the handlers and the clients. -/
def channelSize : ℕ := 1024

/-- A client of `/ws`, with the position of the event it gets next and the frames it got. -/
structure Client where
  next : ℕ
  frames : List (List Char)

/-- A client gets what is published from here on. -/
def subscribe (published : List WsEvent) : Client := ⟨published.length, []⟩

/-- One turn of the loop of a client: a client that is too slow misses events and goes on. -/
def forward (published : List WsEvent) (client : Client) : Client :=
  match recv channelSize published client.next with
  | (.value event, next) => ⟨next, client.frames ++ [frameOf ft event]⟩
  | (.lagged _, next) => ⟨next, client.frames⟩
  | (.empty, next) => ⟨next, client.frames⟩

end Frames

/-! ## Handlers that publish -/

namespace Live

/-- Day-to-date OEE of a work center; without inputs there is nothing to publish. -/
def publishOeeSnapshot (db : Database) (now : Int) (workCenterId : String) : List WsEvent :=
  match oeeInputs db workCenterId (dayOf now) now with
  | .ok inputs =>
      let r := compute inputs
      [.oeeSnapshot workCenterId r.availability r.performance r.quality r.oee]
  | .error _ => []

def transitionWo (db : Database) (now : Int) (id : String) (target : WoStatus) :
    Database × List WsEvent × Except ApiErr WorkOrderRow :=
  match Edge.transitionWo db now id target with
  | (db, .error e) => (db, [], .error e)
  | (db, .ok updated) => (db, [.workOrderStatusChanged id target.asStr], .ok updated)

def startOp (db : Database) (now : Int) (opId : String) :
    Database × List WsEvent × Except ApiErr WoOperationRow :=
  match getOperation db opId with
  | .error e => (db, [], .error (repoErr e))
  | .ok op =>
      match OpStatus.parse op.status with
      | none => (db, [], .error ⟨500, "internal", "unknown operation status"⟩)
      | some status =>
          if status.canTransition .inProgress then
            match startOperation db opId now with
            | .error e => (db, [], .error (repoErr e))
            | .ok (db, updated) =>
                match getWorkOrder db op.workOrderId with
                | .error e => (db, [], .error (repoErr e))
                | .ok wo =>
                    if WoStatus.parse wo.status = some .released then
                      match transitionWo db now op.workOrderId .inProgress with
                      | (db, events, .error e) => (db, events, .error e)
                      | (db, events, .ok _) =>
                          (db, events ++ [.operationStarted op.workOrderId opId], .ok updated)
                    else (db, [.operationStarted op.workOrderId opId], .ok updated)
          else
            (db, [], .error ⟨409, "invalid_transition",
              "operation cannot be started from its current status"⟩)

/-- The operation stands at the same work center after the count. The clock is read again for
the snapshot. -/
def recordCount (db : Database) (now snapshotAt : Int) (id opId : String) (input : CountInput) :
    Database × List WsEvent × Except ApiErr WoOperationRow :=
  match Edge.recordCount db now id opId input with
  | (db, .error e) => (db, [], .error e)
  | (db, .ok updated) =>
      (db, .countRecorded opId input.good input.scrap ::
        updated.workCenterId.toList.flatMap (publishOeeSnapshot db snapshotAt), .ok updated)

def scheduleTransfer (db : Database) (dnc : TcpDncClient) (socket : Option DncBridgeError)
    (now : Int) (id : String) (r : TransferRequest) :
    (Database × TcpDncClient) × List WsEvent × Except ApiErr TransferRow :=
  match Edge.scheduleTransfer db dnc socket now id r with
  | (st, .error e) => (st, [], .error e)
  | (st, .ok t) =>
      (st, [.dncTransferScheduled t.id r.programId r.programIdentifier r.woOperationId], .ok t)

/-- What follows on a completed operation: a transfer of the next program. Its failure is
nobody's. -/
def onJobComplete (db : Database) (dnc : TcpDncClient) (socket : Option DncBridgeError)
    (now : Int) (transferId completedOpId : String) :
    (Database × TcpDncClient) × List WsEvent :=
  match resolveNextTransfer db completedOpId with
  | none => ((db, dnc), [])
  | some next =>
      let res := scheduleTransfer db dnc socket now transferId
        ⟨next.programId, next.programIdentifier, next.targetMachine, some next.nextOpId⟩
      (res.1, res.2.1)

def completeOp (db : Database) (dnc : TcpDncClient) (socket : Option DncBridgeError)
    (now : Int) (transferId opId : String) :
    (Database × TcpDncClient) × List WsEvent × Except ApiErr WoOperationRow :=
  match getOperation db opId with
  | .error e => ((db, dnc), [], .error (repoErr e))
  | .ok op =>
      match OpStatus.parse op.status with
      | none => ((db, dnc), [], .error ⟨500, "internal", "unknown operation status"⟩)
      | some status =>
          if status.canTransition .completed then
            match completeOperation db opId now with
            | .error e => ((db, dnc), [], .error (repoErr e))
            | .ok (db, updated) =>
                let res := onJobComplete db dnc socket now transferId opId
                (res.1, .operationCompleted op.workOrderId opId :: res.2, .ok updated)
          else
            ((db, dnc), [], .error ⟨409, "invalid_transition",
              "operation cannot be completed from its current status"⟩)

def classifyDowntime (db : Database) (now : Int) (auth : AuthUser) (id reasonId : String) :
    Database × List WsEvent × Except ApiErr DowntimeEventRow :=
  match Db.classifyDowntime db id reasonId auth.userId now with
  | .error e => (db, [], .error (repoErr e))
  | .ok (db, event) => (db, [.downtimeClassified id reasonId], .ok event)

/-- The event of a half of a split that has a reason. -/
def classified (r : DowntimeEventRow) : List WsEvent :=
  (r.reasonId.map (WsEvent.downtimeClassified r.id)).toList

def splitDowntime (db : Database) (now : Int) (newId : String) (auth : AuthUser) (id : String)
    (splitAt : Int) (firstReason secondReason : Option String) :
    Database × List WsEvent × Except ApiErr (DowntimeEventRow × DowntimeEventRow) :=
  match Db.splitDowntime db id splitAt firstReason secondReason auth.userId newId now with
  | .error e => (db, [], .error (repoErr e))
  | .ok (db, halves) => (db, classified halves.1 ++ classified halves.2, .ok halves)

def manualTransfer (db : Database) (dnc : TcpDncClient) (socket : Option DncBridgeError)
    (now : Int) (id programId : String) (machine woOperationId : Option String) :
    (Database × TcpDncClient) × List WsEvent × Except ApiErr TransferRow :=
  match programDispatchInfo db programId with
  | none => ((db, dnc), [], .error ⟨404, "not_found", "program not found"⟩)
  | some (identifier, target) =>
      scheduleTransfer db dnc socket now id
        ⟨programId, identifier, machine <|> target, woOperationId⟩

def retryTransfer (db : Database) (dnc : TcpDncClient) (socket : Option DncBridgeError)
    (now : Int) (id existingId : String) :
    (Database × TcpDncClient) × List WsEvent × Except ApiErr TransferRow :=
  match getTransfer db existingId with
  | .error e => ((db, dnc), [], .error (repoErr e))
  | .ok existing =>
      match programDispatchInfo db existing.programId with
      | none => ((db, dnc), [], .error ⟨404, "not_found", "program not found"⟩)
      | some (identifier, target) =>
          scheduleTransfer db dnc socket now id
            ⟨existing.programId, identifier, target, existing.woOperationId⟩

/-- A failed transfer is not announced. -/
def handleDaemonEvent (db : Database) (now : Int) (id : String) :
    DncEvent → Database × List WsEvent × Except ApiErr Unit
  | .transferCompleted reference =>
      match findOpenTransferByRef db reference with
      | none => (db, [], .ok ())
      | some t =>
          match setTransferStatus db now t.id TransferStatus.completed.asStr with
          | .error e => (db, [], .error (repoErr e))
          | .ok (db, _) => (db, [.dncTransferCompleted t.id], .ok ())
  | .transferFailed reference _ =>
      let res := closeTransfer db now reference .failed
      (res.1, [], res.2)
  | .programReceived program contentRef =>
      match findProgramIdByIdentifier db program with
      | none => (db, [], .ok ())
      | some programId =>
          match createDraftRevision db now id programId "operator_edit" contentRef none with
          | .error e => (db, [], .error (repoErr e))
          | .ok (db, rev) => (db, [.programRevisionDrafted rev.id programId], .ok ())

def recordResult (db : Database) (now : Int) (ids : ℕ → String) (auth : AuthUser)
    (input : ResultInput) :
    Database × List WsEvent × Except ApiErr (InspectionResultRow × Option NcrRow) :=
  match Edge.recordResult db now ids auth input with
  | (db, .error e) => (db, [], .error e)
  | (db, .ok (result, ncr)) =>
      (db, (ncr.map fun n => WsEvent.ncrRaised n.id n.ncrNo n.lotId).toList, .ok (result, ncr))

/-! ### What is published comes on top -/

variable (db : Database) (dnc : TcpDncClient) (socket : Option DncBridgeError) (now : Int)

theorem transitionWo_plain (id : String) (target : WoStatus) :
    ((transitionWo db now id target).1, (transitionWo db now id target).2.2) =
      Edge.transitionWo db now id target := by
  unfold transitionWo
  split <;> rename_i h <;> rw [h]

theorem startOp_plain (opId : String) :
    ((startOp db now opId).1, (startOp db now opId).2.2) = Edge.startOp db now opId := by
  unfold startOp Edge.startOp
  cases getOperation db opId with
  | error e => rfl
  | ok op =>
      dsimp only
      cases OpStatus.parse op.status with
      | none => rfl
      | some status =>
          dsimp only
          by_cases hcan : status.canTransition .inProgress = true
          · rw [if_pos hcan, if_pos hcan]
            cases startOperation db opId now with
            | error e => rfl
            | ok res =>
                dsimp only
                cases getWorkOrder res.1 op.workOrderId with
                | error e => rfl
                | ok wo =>
                    dsimp only
                    by_cases hreleased : WoStatus.parse wo.status = some .released
                    · rw [if_pos hreleased, if_pos hreleased,
                        ← transitionWo_plain res.1 now op.workOrderId .inProgress]
                      generalize transitionWo res.1 now op.workOrderId .inProgress = moved
                      obtain ⟨db', events, reply⟩ := moved
                      cases reply <;> rfl
                    · rw [if_neg hreleased, if_neg hreleased]
          · rw [if_neg hcan, if_neg hcan]

theorem recordCount_plain (snapshotAt : Int) (id opId : String) (input : CountInput) :
    ((recordCount db now snapshotAt id opId input).1,
      (recordCount db now snapshotAt id opId input).2.2) =
        Edge.recordCount db now id opId input := by
  unfold recordCount
  split <;> rename_i h <;> rw [h]

theorem scheduleTransfer_plain (id : String) (r : TransferRequest) :
    ((scheduleTransfer db dnc socket now id r).1, (scheduleTransfer db dnc socket now id r).2.2) =
      Edge.scheduleTransfer db dnc socket now id r := by
  unfold scheduleTransfer
  split <;> rename_i h <;> rw [h]

/-- The operation completes whatever becomes of the transfer behind it. -/
theorem completeOp_plain (transferId opId : String) :
    (completeOp db dnc socket now transferId opId).2.2 = (Edge.completeOp db now opId).2 := by
  unfold completeOp Edge.completeOp
  cases getOperation db opId with
  | error e => rfl
  | ok op =>
      dsimp only
      cases OpStatus.parse op.status with
      | none => rfl
      | some status =>
          dsimp only
          by_cases hcan : status.canTransition .completed = true
          · rw [if_pos hcan, if_pos hcan]
            cases completeOperation db opId now <;> rfl
          · rw [if_neg hcan, if_neg hcan]

theorem handleDaemonEvent_plain (id : String) (event : DncEvent) :
    ((handleDaemonEvent db now id event).1, (handleDaemonEvent db now id event).2.2) =
      Edge.handleDaemonEvent db now id event := by
  cases event with
  | transferCompleted reference =>
      simp only [handleDaemonEvent, Edge.handleDaemonEvent, closeTransfer]
      cases findOpenTransferByRef db reference with
      | none => rfl
      | some t =>
          dsimp only
          cases setTransferStatus db now t.id TransferStatus.completed.asStr <;> rfl
  | transferFailed reference error => rfl
  | programReceived program contentRef =>
      simp only [handleDaemonEvent, Edge.handleDaemonEvent]
      cases findProgramIdByIdentifier db program with
      | none => rfl
      | some programId =>
          dsimp only
          cases createDraftRevision db now id programId "operator_edit" contentRef none <;> rfl

end Live

/-! ## Frames are read back -/

section RoundTrip

variable {ft : FloatText}

theorem fromJson_members (event : WsEvent) :
    WsEvent.fromJson (.obj event.members) = some event := by
  cases event with
  | dncTransferScheduled transferId programId programIdentifier woOperationId =>
      cases woOperationId <;>
        simp [WsEvent.members, WsEvent.fromJson, tagged, Body.required, Body.optional,
          Body.defaulted, Body.found, Body.ended, under, Json.asString, Json.asOption,
          optStringToJson]
  | ncrRaised ncrId ncrNo lotId =>
      cases lotId <;>
        simp [WsEvent.members, WsEvent.fromJson, tagged, Body.required, Body.optional,
          Body.defaulted, Body.found, Body.ended, under, Json.asString, Json.asOption,
          optStringToJson]
  | workOrderStatusChanged | operationStarted | operationCompleted | countRecorded
  | downtimeClassified | dncTransferCompleted | programRevisionDrafted | oeeSnapshot =>
      simp [WsEvent.members, WsEvent.fromJson, tagged, Body.required, Body.found, Body.ended,
        under, Json.asString, WsEvent.asFloat]

/-- A text carries an event as soon as it carries floats. -/
theorem carried_members (hft : ∀ x, ft.Legible x) (event : WsEvent) :
    (Json.obj event.members).Carried ft.Legible 1 := by
  cases event with
  | dncTransferScheduled transferId programId programIdentifier woOperationId =>
      cases woOperationId <;> simp [WsEvent.members, Json.Carried, optStringToJson]
  | ncrRaised ncrId ncrNo lotId =>
      cases lotId <;> simp [WsEvent.members, Json.Carried, optStringToJson]
  | countRecorded woOperationId good scrap =>
      have hgood : Fits64 good.toInt :=
        ⟨by have := good.le_toInt; omega, by have := good.toInt_lt; omega⟩
      have hscrap : Fits64 scrap.toInt :=
        ⟨by have := scrap.le_toInt; omega, by have := scrap.toInt_lt; omega⟩
      simp [WsEvent.members, Json.Carried, hgood, hscrap]
  | oeeSnapshot => simp [WsEvent.members, Json.Carried, hft]
  | workOrderStatusChanged | operationStarted | operationCompleted | downtimeClassified
  | dncTransferCompleted | programRevisionDrafted => simp [WsEvent.members, Json.Carried]

theorem reread_members (ft : FloatText) (event : WsEvent) :
    (Json.obj event.members).reread ft = .obj (event.reread ft).members := by
  cases event with
  | dncTransferScheduled transferId programId programIdentifier woOperationId =>
      cases woOperationId <;> rfl
  | ncrRaised ncrId ncrNo lotId => cases lotId <;> rfl
  | workOrderStatusChanged | operationStarted | operationCompleted | countRecorded
  | downtimeClassified | dncTransferCompleted | programRevisionDrafted | oeeSnapshot => rfl

/-- A frame is read as the event, but for what the texts keep of its figures. -/
theorem readFrame_frameOf (hft : ∀ x, ft.Legible x) (event : WsEvent) :
    readFrame ft (frameOf ft event) = some (event.reread ft) := by
  have hparse := @parse_render_reread ft 1 _ (carried_members hft event) (by decide) [] []
    (by simp) (by simp)
  rw [List.nil_append, List.append_nil, reread_members] at hparse
  rw [readFrame, frameOf, hparse, Option.bind_some, fromJson_members]

/-- A turn adds the frame of what the channel hands over. -/
theorem forward_eq (ft : FloatText) (published : List WsEvent) (client : Client) :
    forward ft published client =
      ⟨(recv channelSize published client.next).2,
        client.frames ++
          ((recv channelSize published client.next).1.toList.map (frameOf ft))⟩ := by
  unfold forward
  generalize recv channelSize published client.next = res
  obtain ⟨answer, next⟩ := res
  cases answer <;> simp [Received.toList]

end RoundTrip

end ElectronixMes.Edge
