import ElectronixMes.Db.RepoDnc
import ElectronixMes.Core.Dnc
import ElectronixMes.Core.Roles
import ElectronixMes.DncBridge.Client

/-!
# Program transfers and revisions on the edge

Scheduling sends the command and then records the transfer under the reference
that the client returned. An event of the daemon closes the open transfer with its
reference, or turns a received program into a draft revision. Promoting and
rejecting are the reviewers' requests. The published events and the audit log are
not modelled.
-/

namespace ElectronixMes.Edge

open Db ElectronixMes.Core DncBridge Relational

/-- What a transfer is scheduled for. -/
structure TransferRequest where
  programId : String
  programIdentifier : String
  machine : Option String
  woOperationId : Option String
  deriving DecidableEq

/-- Ask the daemon for a transfer and record it as scheduled. -/
def scheduleTransfer (db : Database) (dnc : TcpDncClient) (socket : Option DncBridgeError)
    (now : Int) (id : String) (r : TransferRequest) :
    (Database × TcpDncClient) × Except ApiErr TransferRow :=
  match dnc.send socket (.sendProgram r.programIdentifier r.machine) with
  | (dnc, .error e) =>
      ((db, dnc), .error ⟨502, "dnc_unavailable",
        "dnc-daemon rejected the command: " ++ e.display⟩)
  | (dnc, .ok daemonRef) =>
      match createTransfer db now id r.woOperationId r.programId
          TransferDirection.toMachine.asStr (some daemonRef) with
      | .error e => ((db, dnc), .error (repoErr e))
      | .ok (db, transfer) => ((db, dnc), .ok transfer)

/-- Schedule a transfer of a program at a user's request. -/
def manualTransfer (db : Database) (dnc : TcpDncClient) (socket : Option DncBridgeError)
    (now : Int) (id programId : String) (machine woOperationId : Option String) :
    (Database × TcpDncClient) × Except ApiErr TransferRow :=
  match programDispatchInfo db programId with
  | none => ((db, dnc), .error ⟨404, "not_found", "program not found"⟩)
  | some (identifier, target) =>
      scheduleTransfer db dnc socket now id
        ⟨programId, identifier, machine <|> target, woOperationId⟩

/-- Schedule a new transfer with the program and the operation of an earlier one. -/
def retryTransfer (db : Database) (dnc : TcpDncClient) (socket : Option DncBridgeError)
    (now : Int) (id existingId : String) :
    (Database × TcpDncClient) × Except ApiErr TransferRow :=
  match getTransfer db existingId with
  | .error e => ((db, dnc), .error (repoErr e))
  | .ok existing =>
      match programDispatchInfo db existing.programId with
      | none => ((db, dnc), .error ⟨404, "not_found", "program not found"⟩)
      | some (identifier, target) =>
          scheduleTransfer db dnc socket now id
            ⟨existing.programId, identifier, target, existing.woOperationId⟩

/-- Close the open transfer with a reference, if there is one. -/
def closeTransfer (db : Database) (now : Int) (ref : String) (status : TransferStatus) :
    Database × Except ApiErr Unit :=
  match findOpenTransferByRef db ref with
  | none => (db, .ok ())
  | some t =>
      match setTransferStatus db now t.id status.asStr with
      | .error e => (db, .error (repoErr e))
      | .ok (db, _) => (db, .ok ())

/-- Apply an event of the daemon. -/
def handleDaemonEvent (db : Database) (now : Int) (id : String) :
    DncEvent → Database × Except ApiErr Unit
  | .transferCompleted reference => closeTransfer db now reference .completed
  | .transferFailed reference _ => closeTransfer db now reference .failed
  | .programReceived program contentRef =>
      match findProgramIdByIdentifier db program with
      | none => (db, .ok ())
      | some programId =>
          match createDraftRevision db now id programId "operator_edit" contentRef none with
          | .error e => (db, .error (repoErr e))
          | .ok (db, _) => (db, .ok ())

/-- Promote or reject a draft revision. -/
def transitionRevision (db : Database) (now : Int) (auth : AuthUser) (id : String)
    (target : RevisionStatus) : Database × Except ApiErr RevisionRow :=
  if canPromoteRevision auth.role then
    match getRevision db id with
    | .error e => (db, .error (repoErr e))
    | .ok rev =>
        match RevisionStatus.parse rev.status with
        | none => (db, .error ⟨500, "internal", "bad status"⟩)
        | some current =>
            if current.canTransition target then
              match setRevisionStatus db now id target.asStr auth.userId with
              | .error e => (db, .error (repoErr e))
              | .ok (db, updated) => (db, .ok updated)
            else
              (db, .error ⟨409, "invalid_transition",
                "revision cannot move from " ++ current.asStr ++ " to " ++ target.asStr⟩)
  else (db, .error ⟨403, "forbidden", "role may not review program revisions"⟩)

def promoteRevision (db : Database) (now : Int) (auth : AuthUser) (id : String) :
    Database × Except ApiErr RevisionRow :=
  transitionRevision db now auth id .promoted

def rejectRevision (db : Database) (now : Int) (auth : AuthUser) (id : String) :
    Database × Except ApiErr RevisionRow :=
  transitionRevision db now auth id .rejected

/-- The status a transfer is stored with. -/
def transferStatus (db : Database) (id : String) : Option String :=
  (db.dncTransferEvents.lookup id).map TransferRow.status

/-- The status a revision is stored with. -/
def revisionStatus (db : Database) (id : String) : Option String :=
  (db.programRevisions.lookup id).map RevisionRow.status

section Status

variable {db : Database} {t : TransferRow} {transfers : Table TransferRow} {r : RevisionRow}
  {revisions : Table RevisionRow}

theorem transferStatus_put (db : Database) (t : TransferRow) (k : String) :
    transferStatus { db with dncTransferEvents := db.dncTransferEvents.put t } k =
      if k = t.id then some t.status else transferStatus db k := by
  unfold transferStatus
  rw [Table.lookup_put, apply_ite (Option.map TransferRow.status)]
  rfl

theorem revisionStatus_put (db : Database) (r : RevisionRow) (k : String) :
    revisionStatus { db with programRevisions := db.programRevisions.put r } k =
      if k = r.id then some r.status else revisionStatus db k := by
  unfold revisionStatus
  rw [Table.lookup_put, apply_ite (Option.map RevisionRow.status)]
  rfl

theorem transferStatus_insert (h : db.dncTransferEvents.insert? t = some transfers) (k : String) :
    transferStatus { db with dncTransferEvents := transfers } k =
      if k = t.id then some t.status else transferStatus db k := by
  unfold transferStatus
  rw [Table.lookup_insert? h, apply_ite (Option.map TransferRow.status)]
  rfl

theorem revisionStatus_insert (h : db.programRevisions.insert? r = some revisions) (k : String) :
    revisionStatus { db with programRevisions := revisions } k =
      if k = r.id then some r.status else revisionStatus db k := by
  unfold revisionStatus
  rw [Table.lookup_insert? h, apply_ite (Option.map RevisionRow.status)]
  rfl

theorem transferStatus_of_insert (h : db.dncTransferEvents.insert? t = some transfers) :
    transferStatus db t.id = none :=
  congrArg (Option.map TransferRow.status) (Table.lookup_of_insert? h)

theorem revisionStatus_of_insert (h : db.programRevisions.insert? r = some revisions) :
    revisionStatus db r.id = none :=
  congrArg (Option.map RevisionRow.status) (Table.lookup_of_insert? h)

end Status

/-- Scheduling leaves the transfers alone or adds one under the new reference, which
the client will not return next. -/
theorem scheduleTransfer_cases (db : Database) (dnc : TcpDncClient)
    (socket : Option DncBridgeError) (now : Int) (id : String) (r : TransferRequest) :
    ((scheduleTransfer db dnc socket now id r).1 = (db, dnc)) ∨
    ((scheduleTransfer db dnc socket now id r).1.2 = ⟨dnc.counter + 1⟩ ∧
      ((scheduleTransfer db dnc socket now id r).1.1 = db ∨
        ∃ row transfers, db.dncTransferEvents.insert? row = some transfers ∧
          row.dncDaemonRef = some (TcpDncClient.reference dnc.counter) ∧
          row.status = TransferStatus.scheduled.asStr ∧
          (scheduleTransfer db dnc socket now id r).1.1 =
            { db with dncTransferEvents := transfers })) := by
  cases socket with
  | some e => exact Or.inl rfl
  | none =>
      refine Or.inr ?_
      simp only [scheduleTransfer, TcpDncClient.send]
      cases hcreate : createTransfer db now id r.woOperationId r.programId
          TransferDirection.toMachine.asStr (some (TcpDncClient.reference dnc.counter)) with
      | error e => exact ⟨rfl, Or.inl rfl⟩
      | ok res =>
          obtain ⟨transfers, hins, hdb, -, href, hstatus⟩ := createTransfer_ok hcreate
          exact ⟨rfl, Or.inr ⟨res.2, transfers, hins, href, hstatus, hdb⟩⟩

/-- Closing by reference writes the transfer that is found, or nothing. -/
theorem closeTransfer_cases (db : Database) (now : Int) (ref : String) (status : TransferStatus) :
    (findOpenTransferByRef db ref = none ∧ (closeTransfer db now ref status).1 = db) ∨
    ∃ t, findOpenTransferByRef db ref = some t ∧
      (closeTransfer db now ref status).1 =
        { db with
          dncTransferEvents := db.dncTransferEvents.put (t.withStatus status.asStr now) } := by
  unfold closeTransfer
  cases hfind : findOpenTransferByRef db ref with
  | none => exact Or.inl ⟨rfl, rfl⟩
  | some t =>
      have hlookup := Table.lookup_of_mem (findOpenTransferByRef_some hfind).1
      refine Or.inr ⟨t, rfl, ?_⟩
      dsimp only
      rw [setTransferStatus, show db.dncTransferEvents.lookup t.id = some t from hlookup]

end ElectronixMes.Edge
