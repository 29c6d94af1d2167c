import ElectronixMes.Db.RepoOrders
import ElectronixMes.Relational.First

/-!
# Transfers and program revisions

The statements of the DNC repository. When an operation completes, the program of the next
one is looked up. A transfer is found again by the reference that the daemon was given,
newest first; a draft revision takes the number after the largest one of its program, in the
insert itself.

## Implementation notes

Rows with equal sort keys come back in insertion order, which is one of the orders
the database may choose.
-/

namespace ElectronixMes.Db

open Relational

section Resolution

/-- The program to transfer for the next queued operation. -/
structure NextTransfer where
  nextOpId : String
  programId : String
  programIdentifier : String
  targetMachine : Option String
  deriving DecidableEq

/-- The next pending operation of an order after a position. -/
def nextPendingOperation (db : Database) (workOrderId : String) (opNo : Int32) :
    Option WoOperationRow :=
  ((db.woOperations.rows.filter fun o =>
      o.workOrderId = workOrderId ∧ opNo < o.opNo ∧ o.status = "pending").insertionSort
    fun a b => a.opNo ≤ b.opNo).head?

/-- The program is bound to the routing operation, or it is one of the part. -/
def ProgramRow.Matches (p : ProgramRow) (wo : WorkOrderRow) (routingOpId : Option String) : Prop :=
  routingOpId.isSome ∧ p.routingOpId = routingOpId ∨ p.partId = some wo.partId

instance (p : ProgramRow) (wo : WorkOrderRow) (routingOpId : Option String) :
    Decidable (p.Matches wo routingOpId) :=
  inferInstanceAs (Decidable
    (routingOpId.isSome ∧ p.routingOpId = routingOpId ∨ p.partId = some wo.partId))

/-- `p.routing_op_id IS NOT DISTINCT FROM` the routing operation, of which `true` comes first. -/
def resolveProgram (db : Database) (wo : WorkOrderRow) (routingOpId : Option String) :
    Option ProgramRow :=
  ((db.programs.rows.filter fun p => p.Matches wo routingOpId).insertionSort
    fun a b => decide (b.routingOpId = routingOpId) ≤ decide (a.routingOpId = routingOpId)).head?

/-- The transfer that follows on a completed operation. -/
def resolveNextTransfer (db : Database) (completedOpId : String) : Option NextTransfer := do
  let completed ← db.woOperations.lookup completedOpId
  let next ← nextPendingOperation db completed.workOrderId completed.opNo
  let wo ← db.workOrders.lookup completed.workOrderId
  let p ← resolveProgram db wo next.routingOpId
  return ⟨next.id, p.id, p.programIdentifier, p.targetMachine⟩

end Resolution

section Transfers

/-- The identifier and the target machine of a program. -/
def programDispatchInfo (db : Database) (programId : String) :
    Option (String × Option String) :=
  (db.programs.lookup programId).map fun r => (r.programIdentifier, r.targetMachine)

/-- The most recent program that the daemon knows by this identifier. -/
def findProgramIdByIdentifier (db : Database) (identifier : String) : Option String :=
  ((db.programs.rows.filter fun r => r.programIdentifier = identifier).insertionSort
    fun a b => b.createdAt ≤ a.createdAt).head?.map ProgramRow.id

/-- Insert a transfer, which starts as scheduled. -/
def createTransfer (db : Database) (now : Int) (id : String) (woOperationId : Option String)
    (programId direction : String) (dncDaemonRef : Option String) :
    Except RepoError (Database × TransferRow) :=
  let row : TransferRow :=
    { id, woOperationId, programId, direction
      status := "scheduled"
      dncDaemonRef
      triggeredAt := now
      completedAt := none
      createdAt := now
      updatedAt := now }
  match db.dncTransferEvents.insert? row with
  | none => .error (mapSqlx (.uniqueViolation "dnc_transfer_events_pkey"))
  | some dncTransferEvents =>
      let keys : Except SqlError Unit := do
        optionalRef (fun k => (db.woOperations.lookup k).isSome) "dnc_transfer_events"
          "dnc_transfer_events_wo_operation_id_fkey" woOperationId
        optionalRef (fun k => (db.programs.lookup k).isSome) "dnc_transfer_events"
          "dnc_transfer_events_program_id_fkey" (some programId)
      match keys with
      | .error e => .error (mapSqlx e)
      | .ok () => .ok ({ db with dncTransferEvents }, row)

/-- A created transfer is scheduled under the given reference. -/
theorem createTransfer_ok {db : Database} {now : Int} {id : String} {woOperationId : Option String}
    {programId direction : String} {dncDaemonRef : Option String} {res : Database × TransferRow}
    (h : createTransfer db now id woOperationId programId direction dncDaemonRef = .ok res) :
    ∃ transfers, db.dncTransferEvents.insert? res.2 = some transfers ∧
      res.1 = { db with dncTransferEvents := transfers } ∧ res.2.id = id ∧
      res.2.dncDaemonRef = dncDaemonRef ∧ res.2.status = "scheduled" := by
  unfold createTransfer at h
  dsimp only at h
  split at h
  · cases h
  · rename_i transfers hins
    split at h
    · cases h
    · cases h
      exact ⟨transfers, hins, rfl, rfl, rfl, rfl⟩

def getTransfer (db : Database) (id : String) : Except RepoError TransferRow :=
  match db.dncTransferEvents.lookup id with
  | none => .error .notFound
  | some r => .ok r

/-- The transfer has neither completed nor failed. -/
def TransferRow.IsOpen (r : TransferRow) : Prop := r.status ≠ "completed" ∧ r.status ≠ "failed"

instance (r : TransferRow) : Decidable r.IsOpen :=
  inferInstanceAs (Decidable (r.status ≠ "completed" ∧ r.status ≠ "failed"))

/-- The newest open transfer with a reference. -/
def findOpenTransferByRef (db : Database) (ref : String) : Option TransferRow :=
  ((db.dncTransferEvents.rows.filter fun r => r.dncDaemonRef = some ref ∧ r.IsOpen).insertionSort
    fun a b => b.triggeredAt ≤ a.triggeredAt).head?

def TransferRow.withStatus (r : TransferRow) (status : String) (now : Int) : TransferRow :=
  { r with
    status
    completedAt := if status = "completed" ∨ status = "failed" then some now else r.completedAt
    updatedAt := now }

@[simp] theorem TransferRow.withStatus_id (r : TransferRow) (status : String) (now : Int) :
    (r.withStatus status now).id = r.id := rfl

@[simp] theorem TransferRow.withStatus_status (r : TransferRow) (status : String) (now : Int) :
    (r.withStatus status now).status = status := rfl

/-- Set the status of a transfer, stamping `completed_at` for terminal ones. -/
def setTransferStatus (db : Database) (now : Int) (id status : String) :
    Except RepoError (Database × TransferRow) :=
  match db.dncTransferEvents.lookup id with
  | none => .error .notFound
  | some r =>
      .ok ({ db with dncTransferEvents := db.dncTransferEvents.put (r.withStatus status now) },
        r.withStatus status now)

variable {db : Database} {ref : String} {t : TransferRow}

/-- What is found is an open transfer with the reference, and none is newer. -/
theorem findOpenTransferByRef_some (h : findOpenTransferByRef db ref = some t) :
    t ∈ db.dncTransferEvents ∧ t.dncDaemonRef = some ref ∧ t.IsOpen ∧
      ∀ u ∈ db.dncTransferEvents, u.dncDaemonRef = some ref → u.IsOpen →
        u.triggeredAt ≤ t.triggeredAt := by
  obtain ⟨ht, hp⟩ := first_mem h
  obtain ⟨href, hopen⟩ := of_decide_eq_true hp
  refine ⟨ht, href, hopen, ?_⟩
  intro u hu huref huopen
  exact first_le (r := fun a b : TransferRow => b.triggeredAt ≤ a.triggeredAt) h hu
    (decide_eq_true ⟨huref, huopen⟩)

/-- An open transfer with the reference is found, itself or another. -/
theorem findOpenTransferByRef_none (h : findOpenTransferByRef db ref = none) :
    ∀ u ∈ db.dncTransferEvents, u.dncDaemonRef = some ref → ¬ u.IsOpen := by
  intro u hu huref huopen
  exact first_eq_none.mp h u hu (decide_eq_true ⟨huref, huopen⟩)

end Transfers

section Revisions

/-- The number that the next revision of a program takes: `MAX + 1`, an `INTEGER`. -/
def nextRevisionNo (db : Database) (programId : String) : Except SqlError Int32 :=
  let numbers := (db.programRevisions.rows.filter fun r => r.programId = programId).map
    fun r => r.revisionNo.toInt
  rollUp (Int32.ofInt (numbers.max?.getD 0)) 1

/-- The insert of a draft with a number that was computed. -/
def insertDraftRevision (db : Database) (now : Int) (id programId : String) (revisionNo : Int32)
    (source : String) (contentRef submittedBy : Option String) :
    Except SqlError (Database × RevisionRow) :=
  let row : RevisionRow :=
    { id, programId, revisionNo, source, contentRef
      status := "draft"
      submittedBy
      submittedAt := now
      promotedBy := none
      promotedAt := none
      createdAt := now
      updatedAt := now }
  match db.programRevisions.insert? row with
  | none => .error (.uniqueViolation "program_revisions_pkey")
  | some programRevisions =>
      if db.programRevisions.rows.any fun r =>
          r.programId = programId ∧ r.revisionNo = revisionNo then
        .error (.uniqueViolation "program_revisions_program_id_revision_no_key")
      else do
        optionalRef (fun k => (db.programs.lookup k).isSome) "program_revisions"
          "program_revisions_program_id_fkey" (some programId)
        optionalRef (· ∈ db.users) "program_revisions" "program_revisions_submitted_by_fkey"
          submittedBy
        return ({ db with programRevisions }, row)

/-- An inserted revision is a draft whose number was free in its program. -/
theorem insertDraftRevision_ok {db : Database} {now : Int} {id programId : String}
    {revisionNo : Int32} {source : String} {contentRef submittedBy : Option String}
    {res : Database × RevisionRow}
    (h : insertDraftRevision db now id programId revisionNo source contentRef submittedBy =
      .ok res) :
    ∃ revisions, db.programRevisions.insert? res.2 = some revisions ∧
      res.1 = { db with programRevisions := revisions } ∧ res.2.programId = programId ∧
      res.2.revisionNo = revisionNo ∧ res.2.status = "draft" ∧
      ∀ r ∈ db.programRevisions, r.programId = programId → r.revisionNo ≠ revisionNo := by
  unfold insertDraftRevision at h
  dsimp only at h
  split at h
  · cases h
  · rename_i revisions hins
    split at h
    · cases h
    · rename_i hfree
      repeat replace h := of_check h
      cases h
      refine ⟨revisions, hins, rfl, rfl, rfl, rfl, ?_⟩
      intro r hr hprogram hno
      exact hfree (List.any_eq_true.mpr ⟨r, hr, decide_eq_true ⟨hprogram, hno⟩⟩)

/-- Create a draft revision, numbered after the last one of its program. -/
def createDraftRevision (db : Database) (now : Int) (id programId source : String)
    (contentRef submittedBy : Option String) : Except RepoError (Database × RevisionRow) :=
  match nextRevisionNo db programId with
  | .error e => .error (mapSqlx e)
  | .ok revisionNo =>
      (insertDraftRevision db now id programId revisionNo source contentRef
        submittedBy).mapError mapSqlx

def getRevision (db : Database) (id : String) : Except RepoError RevisionRow :=
  match db.programRevisions.lookup id with
  | none => .error .notFound
  | some r => .ok r

def RevisionRow.withStatus (r : RevisionRow) (status actor : String) (now : Int) : RevisionRow :=
  { r with status, promotedBy := some actor, promotedAt := some now, updatedAt := now }

@[simp] theorem RevisionRow.withStatus_id (r : RevisionRow) (status actor : String) (now : Int) :
    (r.withStatus status actor now).id = r.id := rfl

/-- Set the status of a revision, stamping the reviewer; transition validity is the
caller's. -/
def setRevisionStatus (db : Database) (now : Int) (id status actor : String) :
    Except RepoError (Database × RevisionRow) :=
  match db.programRevisions.lookup id with
  | none => .error .notFound
  | some r =>
      if actor ∈ db.users then
        .ok
          ({ db with programRevisions := db.programRevisions.put (r.withStatus status actor now) },
            r.withStatus status actor now)
      else
        .error (mapSqlx (.foreignKeyViolation "program_revisions"
          "program_revisions_promoted_by_fkey"))

theorem setRevisionStatus_ok {db : Database} {now : Int} {id status actor : String}
    {res : Database × RevisionRow} (h : setRevisionStatus db now id status actor = .ok res) :
    ∃ r, db.programRevisions.lookup id = some r ∧
      res.1 = { db with
        programRevisions := db.programRevisions.put (r.withStatus status actor now) } ∧
      res.2 = r.withStatus status actor now := by
  unfold setRevisionStatus at h
  split at h
  · cases h
  · rename_i r hr
    split at h
    · cases h
      exact ⟨r, hr, rfl, rfl⟩
    · cases h

end Revisions

end ElectronixMes.Db
