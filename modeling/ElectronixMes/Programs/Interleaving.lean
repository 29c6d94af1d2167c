import ElectronixMes.Programs.Correlation
import ElectronixMes.Transition.Sessions

/-!
# Transfers and revisions, statement by statement

The requests that touch transfers and revisions, interleaved with each other and
with every other request of the edge. Scheduling sends, then inserts; an event
looks its transfer up, then writes; a review reads, then writes. Run alone, a
session is the handler of `Edge`.

## Implementation notes

The insert of a draft computes its number from what is committed when the statement
starts, so it is two steps here; the unique index is checked by the second. Other
requests are any change of the other tables: no other statement writes transfers or
revisions, and a program that has either cannot be deleted with its part.
-/

namespace ElectronixMes.Programs

open Db ElectronixMes.Core Edge DncBridge Relational Transition

/-- What a statement draws from outside: the clock, an id, and the socket's error. -/
structure Input where
  now : Int
  id : String
  socket : Option DncBridgeError := none

inductive Request where
  | schedule (r : TransferRequest)
  | event (e : DncEvent)
  | promote (auth : AuthUser) (id : String)
  | reject (auth : AuthUser) (id : String)
  | other (change : Database → Database)

inductive Reply where
  | transfer (r : TransferRow)
  | revision (r : RevisionRow)
  | done
  deriving DecidableEq

/-- The next statement of a request, with the variables it has read. -/
inductive Phase where
  | send (r : TransferRequest)
  | recordTransfer (r : TransferRequest) (daemonRef : String)
  | findTransfer (reference : String) (status : TransferStatus)
  | setTransfer (found : TransferRow) (status : TransferStatus)
  | findProgram (program : String) (contentRef : Option String)
  | numberRevision (programId : String) (contentRef : Option String)
  | insertRevision (programId : String) (contentRef : Option String) (revisionNo : Int32)
  | readRevision (auth : AuthUser) (id : String) (target : RevisionStatus)
  | writeRevision (auth : AuthUser) (id : String) (target current : RevisionStatus)
  | other (change : Database → Database)
  | ended (reply : Except ApiErr Reply)

def Phase.isEnded : Phase → Bool
  | .ended _ => true
  | _ => false

/-- A review starts with the check of the caller's role. -/
def reviewPhase (auth : AuthUser) (id : String) (target : RevisionStatus) : Phase :=
  if canPromoteRevision auth.role then .readRevision auth id target
  else .ended (.error ⟨403, "forbidden", "role may not review program revisions"⟩)

def Request.phase : Request → Phase
  | schedule r => .send r
  | event (.transferCompleted reference) => .findTransfer reference .completed
  | event (.transferFailed reference _) => .findTransfer reference .failed
  | event (.programReceived program contentRef) => .findProgram program contentRef
  | promote auth id => reviewPhase auth id .promoted
  | reject auth id => reviewPhase auth id .rejected
  | other change => .other change

/-- A session: the request it serves and where it stands. -/
structure Thread where
  request : Request
  phase : Phase

def Request.thread (r : Request) : Thread := ⟨r, r.phase⟩

def failed (st : Station) (e : ApiErr) : Station × Phase := (st, .ended (.error e))

/-- One statement, or one send. -/
def run (input : Input) (st : Station) : Phase → Station × Phase
  | .send r =>
      match st.dnc.send input.socket (.sendProgram r.programIdentifier r.machine) with
      | (dnc, .error e) => failed { st with dnc } ⟨502, "dnc_unavailable",
          "dnc-daemon rejected the command: " ++ e.display⟩
      | (dnc, .ok daemonRef) => ({ st with dnc }, .recordTransfer r daemonRef)
  | .recordTransfer r daemonRef =>
      match createTransfer st.db input.now input.id r.woOperationId r.programId
          TransferDirection.toMachine.asStr (some daemonRef) with
      | .error e => failed st (repoErr e)
      | .ok (db, transfer) => ({ st with db }, .ended (.ok (.transfer transfer)))
  | .findTransfer reference status =>
      match findOpenTransferByRef st.db reference with
      | none => (st, .ended (.ok .done))
      | some t => (st, .setTransfer t status)
  | .setTransfer found status =>
      match setTransferStatus st.db input.now found.id status.asStr with
      | .error e => failed st (repoErr e)
      | .ok (db, _) => ({ st with db }, .ended (.ok .done))
  | .findProgram program contentRef =>
      match findProgramIdByIdentifier st.db program with
      | none => (st, .ended (.ok .done))
      | some programId => (st, .numberRevision programId contentRef)
  | .numberRevision programId contentRef =>
      match nextRevisionNo st.db programId with
      | .error e => failed st (repoErr (mapSqlx e))
      | .ok revisionNo => (st, .insertRevision programId contentRef revisionNo)
  | .insertRevision programId contentRef revisionNo =>
      match insertDraftRevision st.db input.now input.id programId revisionNo "operator_edit"
          contentRef none with
      | .error e => failed st (repoErr (mapSqlx e))
      | .ok (db, _) => ({ st with db }, .ended (.ok .done))
  | .readRevision auth id target =>
      match getRevision st.db id with
      | .error e => failed st (repoErr e)
      | .ok rev =>
          match RevisionStatus.parse rev.status with
          | none => failed st ⟨500, "internal", "bad status"⟩
          | some current =>
              if current.canTransition target then (st, .writeRevision auth id target current)
              else failed st ⟨409, "invalid_transition",
                "revision cannot move from " ++ current.asStr ++ " to " ++ target.asStr⟩
  | .writeRevision auth id target _ =>
      match setRevisionStatus st.db input.now id target.asStr auth.userId with
      | .error e => failed st (repoErr e)
      | .ok (db, updated) => ({ st with db }, .ended (.ok (.revision updated)))
  | .other change =>
      ({ st with db := { change st.db with
          dncTransferEvents := st.db.dncTransferEvents
          programRevisions := st.db.programRevisions } }, .ended (.ok .done))
  | .ended reply => (st, .ended reply)

def exec (_ : ℕ) (input : Input) (st : Station) (th : Thread) : Station × Thread :=
  ((run input st th.phase).1, { th with phase := (run input st th.phase).2 })

abbrev State := Sessions Station Thread

abbrev Schedule := List (Move Request Input)

def step : State → Move Request Input → State := Sessions.step Request.thread exec

/-- A new process over a database without transfers and revisions. -/
def opened (db : Database) : State :=
  ⟨⟨{ db with dncTransferEvents := ∅, programRevisions := ∅ }, .new⟩, []⟩

/-- The state before the `k`-th move. -/
def stateAt (db : Database) (moves : Schedule) (k : ℕ) : State :=
  (moves.take k).foldl step (opened db)

theorem stateAt_succ (db : Database) (moves : Schedule) (k : ℕ) :
    stateAt db moves (k + 1) = stateAt db moves k ∨
      ∃ m, moves[k]? = some m ∧ stateAt db moves (k + 1) = step (stateAt db moves k) m :=
  foldl_take_succ step (opened db) moves k

theorem stateAt_of_move (db : Database) {moves : Schedule} {k : ℕ} {m : Move Request Input}
    (hm : moves[k]? = some m) : stateAt db moves (k + 1) = step (stateAt db moves k) m := by
  simp [stateAt, List.take_add_one, hm]

section Alone

variable (st : Station) (input : Input)

/-- The first `n` statements of a session that runs alone. -/
def alone : ℕ → Station × Phase → Station × Phase
  | 0, p => p
  | n + 1, p => alone n (run input p.1 p.2)

theorem alone_ended (n : ℕ) (reply : Except ApiErr Reply) :
    alone input n (st, .ended reply) = (st, .ended reply) := by
  induction n with
  | zero => rfl
  | succ n ih => exact ih

theorem alone_succ (n : ℕ) (p : Station × Phase) :
    alone input (n + 1) p = alone input n (run input p.1 p.2) := rfl

/-- Alone, scheduling is the handler's. -/
theorem alone_schedule (r : TransferRequest) :
    let res := scheduleTransfer st.db st.dnc input.socket input.now input.id r
    alone input 2 (st, (Request.schedule r).phase) =
      (⟨res.1.1, res.1.2⟩, .ended (res.2.map .transfer)) := by
  intro res
  obtain ⟨db, dnc⟩ := st
  simp only [res, Request.phase, alone_succ, run, scheduleTransfer, TcpDncClient.send]
  cases input.socket with
  | some e => rfl
  | none =>
      dsimp only
      cases createTransfer db input.now input.id r.woOperationId r.programId
          TransferDirection.toMachine.asStr (some (TcpDncClient.reference dnc.counter)) with
      | error e => rfl
      | ok res => rfl

/-- Alone, closing by reference is the handler's. -/
theorem alone_close (n : ℕ) (reference : String) (status : TransferStatus) :
    let res := closeTransfer st.db input.now reference status
    alone input (n + 2) (st, .findTransfer reference status) =
      ({ st with db := res.1 }, .ended (res.2.map fun _ => .done)) := by
  intro res
  simp only [res, alone_succ, run, closeTransfer]
  cases findOpenTransferByRef st.db reference with
  | none => exact alone_ended st input (n + 1) _
  | some t =>
      dsimp only
      cases setTransferStatus st.db input.now t.id status.asStr with
      | error e => exact alone_ended st input n _
      | ok res => exact alone_ended _ input n _

/-- Alone, an event is the handler's. -/
theorem alone_event (e : DncEvent) :
    let res := handleDaemonEvent st.db input.now input.id e
    alone input 3 (st, (Request.event e).phase) =
      ({ st with db := res.1 }, .ended (res.2.map fun _ => .done)) := by
  cases e with
  | transferCompleted reference => exact alone_close st input 1 reference .completed
  | transferFailed reference error => exact alone_close st input 1 reference .failed
  | programReceived program contentRef =>
      simp only [Request.phase, alone_succ, run, handleDaemonEvent]
      cases findProgramIdByIdentifier st.db program with
      | none => exact alone_ended st input 2 _
      | some programId =>
          simp only [createDraftRevision]
          cases nextRevisionNo st.db programId with
          | error e => exact alone_ended st input 1 _
          | ok revisionNo =>
              dsimp only
              cases insertDraftRevision st.db input.now input.id programId revisionNo
                  "operator_edit" contentRef none with
              | error e => rfl
              | ok res => rfl

/-- Alone, a review is the handler's. -/
theorem alone_review (auth : AuthUser) (id : String) (target : RevisionStatus) :
    let res := transitionRevision st.db input.now auth id target
    alone input 2 (st, reviewPhase auth id target) =
      ({ st with db := res.1 }, .ended (res.2.map .revision)) := by
  simp only [reviewPhase, transitionRevision]
  by_cases hrole : canPromoteRevision auth.role = true
  · simp only [if_pos hrole, alone_succ, run]
    cases getRevision st.db id with
    | error e => exact alone_ended st input 1 _
    | ok rev =>
        dsimp only
        cases RevisionStatus.parse rev.status with
        | none => exact alone_ended st input 1 _
        | some current =>
            dsimp only
            by_cases hcan : current.canTransition target = true
            · simp only [if_pos hcan]
              cases setRevisionStatus st.db input.now id target.asStr auth.userId with
              | error e => rfl
              | ok res => rfl
            · simp only [if_neg hcan]
              exact alone_ended st input 1 _
  · simp only [if_neg hrole]
    exact alone_ended st input 2 _

end Alone

section Started

/-- The request is a review of the revision with this target. -/
def Request.Reviews (request : Request) (auth : AuthUser) (id : String)
    (target : RevisionStatus) : Prop :=
  request = .promote auth id ∧ target = .promoted ∨ request = .reject auth id ∧ target = .rejected

/-- How a session starts. -/
inductive Started : Request → Phase → Prop
  | schedule (r : TransferRequest) : Started (.schedule r) (.send r)
  | outcome (e : DncEvent) (ref : String) {status : TransferStatus}
      (terminal : status.isTerminal = true) : Started (.event e) (.findTransfer ref status)
  | received (e : DncEvent) (program : String) (contentRef : Option String) :
      Started (.event e) (.findProgram program contentRef)
  | review {request : Request} {auth : AuthUser} {id : String} {target : RevisionStatus}
      (reviews : request.Reviews auth id target) (may : canPromoteRevision auth.role = true) :
      Started request (.readRevision auth id target)
  | forbidden {request : Request} {auth : AuthUser} {id : String} {target : RevisionStatus}
      (reviews : request.Reviews auth id target) (e : ApiErr) :
      Started request (.ended (.error e))
  | other (change : Database → Database) : Started (.other change) (.other change)

theorem started_review {request : Request} {auth : AuthUser} {id : String}
    {target : RevisionStatus} (h : request.Reviews auth id target) :
    Started request (reviewPhase auth id target) := by
  unfold reviewPhase
  split
  · rename_i hrole
    exact .review h hrole
  · exact .forbidden h _

theorem started (r : Request) : Started r r.phase := by
  cases r with
  | schedule r => exact .schedule r
  | event e =>
      cases e with
      | transferCompleted reference => exact .outcome _ reference rfl
      | transferFailed reference error => exact .outcome _ reference rfl
      | programReceived program contentRef => exact .received _ program contentRef
  | promote auth id => exact started_review (Or.inl ⟨rfl, rfl⟩)
  | reject auth id => exact started_review (Or.inr ⟨rfl, rfl⟩)
  | other change => exact .other change

end Started

section Ran

/-- The transfer that a session has found and is about to close. -/
def Phase.found? : Phase → Option TransferRow
  | .setTransfer found _ => some found
  | _ => none

theorem Phase.eq_setTransfer {ph : Phase} {t : TransferRow} (h : ph.found? = some t) :
    ∃ status, ph = .setTransfer t status := by
  unfold Phase.found? at h
  split at h
  · cases h
    exact ⟨_, rfl⟩
  · cases h

/-- What one statement can do, by the phase it is taken in. -/
inductive Ran (input : Input) (st : Station) : Phase → Station × Phase → Prop
  | refused (ph : Phase) (e : ApiErr)
      (gone : ∀ t ∈ ph.found?, st.db.dncTransferEvents.lookup t.id = none) :
      Ran input st ph (st, .ended (.error e))
  | sent (r : TransferRequest) : Ran input st (.send r)
      ({ st with dnc := ⟨st.dnc.counter + 1⟩ },
        .recordTransfer r (TcpDncClient.reference st.dnc.counter))
  | recorded (r : TransferRequest) {ref : String} {row : TransferRow}
      {transfers : Table TransferRow}
      (insert : st.db.dncTransferEvents.insert? row = some transfers)
      (reference : row.dncDaemonRef = some ref) (scheduled : row.status = "scheduled") :
      Ran input st (.recordTransfer r ref)
        ({ st with db := { st.db with dncTransferEvents := transfers } },
          .ended (.ok (.transfer row)))
  | missed {ref : String} (status : TransferStatus)
      (none : findOpenTransferByRef st.db ref = none) :
      Ran input st (.findTransfer ref status) (st, .ended (.ok .done))
  | found {ref : String} {t : TransferRow} (status : TransferStatus)
      (find : findOpenTransferByRef st.db ref = some t) :
      Ran input st (.findTransfer ref status) (st, .setTransfer t status)
  | closed {found t : TransferRow} (status : TransferStatus)
      (stored : st.db.dncTransferEvents.lookup found.id = some t) :
      Ran input st (.setTransfer found status)
        ({ st with db := { st.db with
            dncTransferEvents :=
              st.db.dncTransferEvents.put (t.withStatus status.asStr input.now) } },
          .ended (.ok .done))
  | unknownProgram (program : String) (contentRef : Option String) :
      Ran input st (.findProgram program contentRef) (st, .ended (.ok .done))
  | foundProgram (program programId : String) (contentRef : Option String) :
      Ran input st (.findProgram program contentRef) (st, .numberRevision programId contentRef)
  | numbered {programId : String} {no : Int32} (contentRef : Option String)
      (next : nextRevisionNo st.db programId = .ok no) :
      Ran input st (.numberRevision programId contentRef)
        (st, .insertRevision programId contentRef no)
  | drafted {programId : String} {no : Int32} {row : RevisionRow} {revisions : Table RevisionRow}
      (contentRef : Option String)
      (insert : st.db.programRevisions.insert? row = some revisions)
      (program : row.programId = programId) (number : row.revisionNo = no)
      (draft : row.status = "draft")
      (free : ∀ r ∈ st.db.programRevisions, r.programId = programId → r.revisionNo ≠ no) :
      Ran input st (.insertRevision programId contentRef no)
        ({ st with db := { st.db with programRevisions := revisions } }, .ended (.ok .done))
  | checked {id : String} {target current : RevisionStatus} {r : RevisionRow} (auth : AuthUser)
      (stored : st.db.programRevisions.lookup id = some r)
      (parsed : RevisionStatus.parse r.status = some current)
      (can : current.canTransition target = true) :
      Ran input st (.readRevision auth id target) (st, .writeRevision auth id target current)
  | reviewed {id : String} {r : RevisionRow} (auth : AuthUser) (target current : RevisionStatus)
      (stored : st.db.programRevisions.lookup id = some r) :
      Ran input st (.writeRevision auth id target current)
        ({ st with db := { st.db with
            programRevisions :=
              st.db.programRevisions.put (r.withStatus target.asStr auth.userId input.now) } },
          .ended (.ok (.revision (r.withStatus target.asStr auth.userId input.now))))
  | other (change : Database → Database) : Ran input st (.other change)
      ({ st with db := { change st.db with
          dncTransferEvents := st.db.dncTransferEvents
          programRevisions := st.db.programRevisions } }, .ended (.ok .done))
  | ended (reply : Except ApiErr Reply) : Ran input st (.ended reply) (st, .ended reply)

/-- Any session that has not found a transfer may be refused. -/
theorem Ran.of_error {input : Input} {st : Station} {ph : Phase} (e : ApiErr)
    (h : ph.found? = none) : Ran input st ph (st, .ended (.error e)) := by
  refine .refused ph e ?_
  intro t ht
  rw [h] at ht
  exact absurd ht (Option.not_mem_none t)

theorem ran_review (input : Input) (st : Station) (auth : AuthUser) (id : String)
    (target : RevisionStatus) :
    Ran input st (.readRevision auth id target) (run input st (.readRevision auth id target)) := by
  simp only [run, getRevision]
  cases hr : st.db.programRevisions.lookup id with
  | none => exact .of_error _ rfl
  | some r =>
      dsimp only
      cases hparse : RevisionStatus.parse r.status with
      | none => exact .of_error _ rfl
      | some current =>
          dsimp only
          by_cases hcan : current.canTransition target = true
          · rw [if_pos hcan]
            exact .checked auth hr hparse hcan
          · rw [if_neg hcan]
            exact .of_error _ rfl

/-- Every statement does one of these. -/
theorem ran_run (input : Input) (st : Station) (ph : Phase) :
    Ran input st ph (run input st ph) := by
  cases ph with
  | send r =>
      simp only [run, TcpDncClient.send]
      cases input.socket with
      | some e => exact .of_error _ rfl
      | none => exact .sent r
  | recordTransfer r ref =>
      simp only [run]
      cases hcreate : createTransfer st.db input.now input.id r.woOperationId r.programId
          TransferDirection.toMachine.asStr (some ref) with
      | error e => exact .of_error _ rfl
      | ok res =>
          obtain ⟨transfers, hins, hdb, -, href, hstatus⟩ := createTransfer_ok hcreate
          obtain ⟨db, row⟩ := res
          obtain rfl : db = _ := hdb
          exact .recorded r hins href hstatus
  | findTransfer ref status =>
      simp only [run]
      cases hfind : findOpenTransferByRef st.db ref with
      | none => exact .missed status hfind
      | some t => exact .found status hfind
  | setTransfer found status =>
      simp only [run, setTransferStatus]
      cases ht : st.db.dncTransferEvents.lookup found.id with
      | none =>
          refine .refused _ _ ?_
          rintro t ⟨⟩
          exact ht
      | some t => exact .closed status ht
  | findProgram program contentRef =>
      simp only [run]
      cases findProgramIdByIdentifier st.db program with
      | none => exact .unknownProgram program contentRef
      | some programId => exact .foundProgram program programId contentRef
  | numberRevision programId contentRef =>
      simp only [run]
      cases hno : nextRevisionNo st.db programId with
      | error e => exact .of_error _ rfl
      | ok no => exact .numbered contentRef hno
  | insertRevision programId contentRef no =>
      simp only [run]
      cases hins : insertDraftRevision st.db input.now input.id programId no "operator_edit"
          contentRef none with
      | error e => exact .of_error _ rfl
      | ok res =>
          obtain ⟨revisions, hins, hdb, hprogram, hno, hdraft, hfree⟩ := insertDraftRevision_ok hins
          obtain ⟨db, row⟩ := res
          obtain rfl : db = _ := hdb
          exact .drafted contentRef hins hprogram hno hdraft hfree
  | readRevision auth id target => exact ran_review input st auth id target
  | writeRevision auth id target current =>
      simp only [run]
      cases hset : setRevisionStatus st.db input.now id target.asStr auth.userId with
      | error e => exact .of_error _ rfl
      | ok res =>
          obtain ⟨r, hr, hdb, hrow⟩ := setRevisionStatus_ok hset
          obtain ⟨db, row⟩ := res
          obtain rfl : db = _ := hdb
          obtain rfl : row = _ := hrow
          exact .reviewed auth target current hr
  | other change => exact .other change
  | ended reply => exact .ended reply

end Ran

end ElectronixMes.Programs
