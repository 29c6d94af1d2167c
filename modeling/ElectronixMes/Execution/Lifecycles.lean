import ElectronixMes.Edge.Exec
import ElectronixMes.Transition.Sessions

/-!
# Order and operation lifecycles under concurrent requests

The requests on orders and operations, statement by statement. Each of them
reads a status, checks the transition on what it read and then writes without a
condition, so a write may rest on a status that another request has replaced.
Run alone, a session is the handler of `Edge`; the lifecycles hold in every
schedule in which each write still finds the status its check saw.
-/

namespace ElectronixMes.Execution

open Db ElectronixMes.Core Edge Relational Transition

/-- The two requests on an operation. -/
inductive OpAction where
  | start
  | complete
  deriving DecidableEq

namespace OpAction

def target : OpAction → OpStatus
  | start => .inProgress
  | complete => .completed

def refusal : OpAction → String
  | start => "operation cannot be started from its current status"
  | complete => "operation cannot be completed from its current status"

end OpAction

inductive Reply where
  | order (r : WorkOrderRow)
  | operation (r : WoOperationRow)
  deriving DecidableEq

/-- The next statement of a request, with the variables it has read. A transition
made on behalf of a start answers with the started operation. -/
inductive Phase where
  | readOrder (id : String) (target : WoStatus) (started : Option WoOperationRow)
  | writeOrder (id : String) (target current : WoStatus) (started : Option WoOperationRow)
  | readOperation (opId : String) (action : OpAction)
  | writeOperation (opId workOrderId : String) (action : OpAction) (status : OpStatus)
  | readParent (workOrderId : String) (updated : WoOperationRow)
  | done (reply : Except ApiErr Reply)

def Phase.isWrite : Phase → Bool
  | .writeOrder _ _ _ _ => true
  | .writeOperation _ _ _ _ => true
  | _ => false

inductive Request where
  | release (id : String)
  | cancel (id : String)
  | close (id : String)
  | complete (id : String)
  | startOp (opId : String)
  | completeOp (opId : String)

def Request.phase : Request → Phase
  | release id => .readOrder id .released none
  | cancel id => .readOrder id .cancelled none
  | close id => .readOrder id .closed none
  | complete id => .readOrder id .completed none
  | startOp opId => .readOperation opId .start
  | completeOp opId => .readOperation opId .complete

/-- The answer of a transition. -/
def answer (started : Option WoOperationRow) (updated : WorkOrderRow) : Reply :=
  match started with
  | none => .order updated
  | some op => .operation op

def fail (db : Database) (e : ApiErr) : Database × Phase := (db, .done (.error e))

/-- One statement of a session, at the time `now`. -/
def exec (_ : ℕ) (now : Int) (db : Database) : Phase → Database × Phase
  | .readOrder id target started =>
      match getWorkOrder db id with
      | .error e => fail db (repoErr e)
      | .ok wo =>
          match WoStatus.parse wo.status with
          | none => fail db ⟨500, "internal", "unknown stored status"⟩
          | some current =>
              if current.canTransition target then (db, .writeOrder id target current started)
              else fail db ⟨409, "invalid_transition",
                "cannot move work order from " ++ current.asStr ++ " to " ++ target.asStr⟩
  | .writeOrder id target _ started =>
      match setWorkOrderStatus db id target.asStr now with
      | .error e => fail db (repoErr e)
      | .ok (db, updated) => (db, .done (.ok (answer started updated)))
  | .readOperation opId action =>
      match getOperation db opId with
      | .error e => fail db (repoErr e)
      | .ok op =>
          match OpStatus.parse op.status with
          | none => fail db ⟨500, "internal", "unknown operation status"⟩
          | some status =>
              if status.canTransition action.target then
                (db, .writeOperation opId op.workOrderId action status)
              else fail db ⟨409, "invalid_transition", action.refusal⟩
  | .writeOperation opId workOrderId .start _ =>
      match startOperation db opId now with
      | .error e => fail db (repoErr e)
      | .ok (db, updated) => (db, .readParent workOrderId updated)
  | .writeOperation opId _ .complete _ =>
      match completeOperation db opId now with
      | .error e => fail db (repoErr e)
      | .ok (db, updated) => (db, .done (.ok (.operation updated)))
  | .readParent workOrderId updated =>
      match getWorkOrder db workOrderId with
      | .error e => fail db (repoErr e)
      | .ok wo =>
          if WoStatus.parse wo.status = some .released then
            (db, .readOrder workOrderId .inProgress (some updated))
          else (db, .done (.ok (.operation updated)))
  | .done reply => (db, .done reply)

section Alone

variable (db : Database) (now : Int)

/-- The first `n` statements of a session that runs alone. -/
def alone : ℕ → Database × Phase → Database × Phase
  | 0, p => p
  | n + 1, p => alone n (exec 0 now p.1 p.2)

theorem alone_done (n : ℕ) (reply : Except ApiErr Reply) :
    alone now n (db, .done reply) = (db, .done reply) := by
  induction n with
  | zero => rfl
  | succ n ih => exact ih

theorem alone_succ (n : ℕ) (p : Database × Phase) :
    alone now (n + 1) p = alone now n (exec 0 now p.1 p.2) := rfl

/-- Alone, a transition is the handler's. -/
theorem alone_transition (n : ℕ) (id : String) (target : WoStatus)
    (started : Option WoOperationRow) :
    alone now (n + 2) (db, .readOrder id target started) =
      ((transitionWo db now id target).1,
        .done ((transitionWo db now id target).2.map (answer started))) := by
  rw [alone_succ, transitionWo, exec]
  cases getWorkOrder db id with
  | error e => exact alone_done db now (n + 1) _
  | ok wo =>
      dsimp only
      cases WoStatus.parse wo.status with
      | none => exact alone_done db now (n + 1) _
      | some current =>
          by_cases hcan : current.canTransition target = true
          · simp only [hcan, if_true, alone_succ, exec]
            cases setWorkOrderStatus db id target.asStr now with
            | error e => exact alone_done db now n _
            | ok res => exact alone_done res.1 now n _
          · simp only [hcan, Bool.false_eq_true, if_false]
            exact alone_done db now (n + 1) _

/-- Alone, the start of an operation is the handler's. -/
theorem alone_startOp (n : ℕ) (opId : String) :
    alone now (n + 5) (db, (Request.startOp opId).phase) =
      ((startOp db now opId).1, .done ((startOp db now opId).2.map .operation)) := by
  rw [alone_succ, Request.phase, startOp, exec]
  cases getOperation db opId with
  | error e => exact alone_done db now (n + 4) _
  | ok op =>
      dsimp only
      cases OpStatus.parse op.status with
      | none => exact alone_done db now (n + 4) _
      | some status =>
          by_cases hcan : status.canTransition .inProgress = true
          · simp only [OpAction.target, hcan, if_true]
            rw [alone_succ, exec]
            cases startOperation db opId now with
            | error e => exact alone_done db now (n + 3) _
            | ok res =>
                dsimp only
                rw [alone_succ, exec]
                cases getWorkOrder res.1 op.workOrderId with
                | error e => exact alone_done res.1 now (n + 2) _
                | ok wo =>
                    dsimp only
                    by_cases hreleased : WoStatus.parse wo.status = some .released
                    · rw [if_pos hreleased, if_pos hreleased, alone_transition res.1 now n]
                      cases transitionWo res.1 now op.workOrderId .inProgress with
                      | mk db' reply => cases reply <;> rfl
                    · rw [if_neg hreleased, if_neg hreleased]
                      exact alone_done res.1 now (n + 2) _
          · simp only [OpAction.target, hcan, Bool.false_eq_true, if_false]
            exact alone_done db now (n + 4) _

/-- Alone, the completion of an operation is the handler's. -/
theorem alone_completeOp (n : ℕ) (opId : String) :
    alone now (n + 2) (db, (Request.completeOp opId).phase) =
      ((completeOp db now opId).1, .done ((completeOp db now opId).2.map .operation)) := by
  rw [alone_succ, Request.phase, completeOp, exec]
  cases getOperation db opId with
  | error e => exact alone_done db now (n + 1) _
  | ok op =>
      dsimp only
      cases OpStatus.parse op.status with
      | none => exact alone_done db now (n + 1) _
      | some status =>
          by_cases hcan : status.canTransition .completed = true
          · simp only [OpAction.target, hcan, if_true, alone_succ, exec]
            cases completeOperation db opId now with
            | error e => exact alone_done db now n _
            | ok res => exact alone_done res.1 now n _
          · simp only [OpAction.target, hcan, Bool.false_eq_true, if_false]
            exact alone_done db now (n + 1) _

end Alone

/-- The stored status of an order. -/
def orderStatus (db : Database) (id : String) : Option String :=
  (db.workOrders.lookup id).map WorkOrderRow.status

/-- The stored status of an operation. -/
def operationStatus (db : Database) (id : String) : Option String :=
  (db.woOperations.lookup id).map WoOperationRow.status

/-- A write finds the row, if it is still there, in the status its check saw. -/
def FreshWrite (db : Database) : Phase → Prop
  | .writeOrder id _ current _ => ∀ s ∈ orderStatus db id, WoStatus.parse s = some current
  | .writeOperation opId _ _ status =>
      ∀ s ∈ operationStatus db opId, OpStatus.parse s = some status
  | _ => True

instance (db : Database) : (ph : Phase) → Decidable (FreshWrite db ph)
  | .writeOrder id _ current _ => inferInstanceAs
      (Decidable (∀ s ∈ orderStatus db id, WoStatus.parse s = some current))
  | .writeOperation opId _ _ status => inferInstanceAs
      (Decidable (∀ s ∈ operationStatus db opId, OpStatus.parse s = some status))
  | .readOrder _ _ _ => inferInstanceAs (Decidable True)
  | .readOperation _ _ => inferInstanceAs (Decidable True)
  | .readParent _ _ => inferInstanceAs (Decidable True)
  | .done _ => inferInstanceAs (Decidable True)

/-- What a session is about to write, it has checked. -/
def Checked : Phase → Prop
  | .writeOrder _ target current _ => current.canTransition target = true
  | .writeOperation _ _ action status => status.canTransition action.target = true
  | _ => True

/-- Every order and every operation stays or moves along its lifecycle. -/
structure LifecycleStep (db db' : Database) : Prop where
  orders : ∀ id, Moves WoStatus.parse WoStatus.asStr WoStatus.canTransition
    (orderStatus db id) (orderStatus db' id)
  operations : ∀ id, Moves OpStatus.parse OpStatus.asStr OpStatus.canTransition
    (operationStatus db id) (operationStatus db' id)

theorem LifecycleStep.refl (db : Database) : LifecycleStep db db :=
  ⟨fun _ => Or.inl rfl, fun _ => Or.inl rfl⟩

section Step

variable {db db' : Database} {now : Int} {who : ℕ}

theorem checked_phase (r : Request) : Checked r.phase := by
  cases r <;> trivial

theorem checked_exec (ph : Phase) : Checked (exec who now db ph).2 := by
  cases ph with
  | readOrder id target started =>
      simp only [exec]
      split
      · trivial
      · split
        · trivial
        · split
          · rename_i hcan
            exact hcan
          · trivial
  | writeOrder id target current started =>
      simp only [exec]
      split <;> trivial
  | readOperation opId action =>
      simp only [exec]
      split
      · trivial
      · split
        · trivial
        · split
          · rename_i hcan
            exact hcan
          · trivial
  | writeOperation opId workOrderId action status =>
      cases action <;> simp only [exec] <;> split <;> trivial
  | readParent workOrderId updated =>
      simp only [exec]
      split
      · trivial
      · split <;> trivial
  | done reply => trivial

/-- A write of a status, checked on the status that is stored, is a step of the
order's lifecycle. -/
theorem lifecycleStep_order {id : String} {target current : WoStatus} {updated : WorkOrderRow}
    (hset : setWorkOrderStatus db id target.asStr now = .ok (db', updated))
    (hcan : current.canTransition target = true)
    (hfresh : ∀ s ∈ orderStatus db id, WoStatus.parse s = some current) :
    LifecycleStep db db' := by
  unfold setWorkOrderStatus at hset
  split at hset
  · cases hset
  · rename_i r hr
    obtain ⟨-, hid⟩ := Table.lookup_eq_some.mp hr
    cases hset
    refine ⟨?_, fun _ => Or.inl rfl⟩
    intro id'
    by_cases hid' : id' = id
    · subst hid'
      have hstatus : orderStatus db id' = some r.status := by
        simp [orderStatus, hr]
      refine Or.inr ⟨current, target, ?_, hcan, ?_⟩
      · rw [hstatus]
        exact hfresh _ hstatus
      · have hput := Table.lookup_put_self db.workOrders (r.withStatus target.asStr now)
        have hkey : Keyed.key (r.withStatus target.asStr now) = id' := hid
        rw [hkey] at hput
        simp only [orderStatus, hput]
        rfl
    · have hput : (db.workOrders.put (r.withStatus target.asStr now)).lookup id' =
          db.workOrders.lookup id' := by
        apply Table.lookup_put_of_ne
        intro h
        exact hid' (h.trans hid)
      exact Or.inl (by simp only [orderStatus, hput])

/-- The same for the row an operation's start or completion writes. -/
theorem lifecycleStep_operation {opId : String} {r r' : WoOperationRow} {action : OpAction}
    {status : OpStatus} (hr : db.woOperations.lookup opId = some r) (hkey : r'.id = r.id)
    (hstatus' : r'.status = action.target.asStr)
    (hcan : status.canTransition action.target = true)
    (hfresh : ∀ s ∈ operationStatus db opId, OpStatus.parse s = some status) :
    LifecycleStep db { db with woOperations := db.woOperations.put r' } := by
  obtain ⟨-, hid⟩ := Table.lookup_eq_some.mp hr
  have hid' : Keyed.key r' = opId := hkey.trans hid
  refine ⟨fun _ => Or.inl rfl, ?_⟩
  intro i
  by_cases hi : i = opId
  · subst hi
    have hstatus : operationStatus db i = some r.status := by
      simp [operationStatus, hr]
    refine Or.inr ⟨status, action.target, ?_, hcan, ?_⟩
    · rw [hstatus]
      exact hfresh _ hstatus
    · have hput := Table.lookup_put_self db.woOperations r'
      rw [hid'] at hput
      simp only [operationStatus, hput, Option.map_some, hstatus']
  · have hput : (db.woOperations.put r').lookup i = db.woOperations.lookup i := by
      apply Table.lookup_put_of_ne
      rw [hid']
      exact hi
    exact Or.inl (by simp only [operationStatus, hput])

/-- A statement that is no write leaves the database alone. -/
theorem exec_read {ph : Phase} (hread : ph.isWrite = false) : (exec who now db ph).1 = db := by
  cases ph with
  | readOrder id target started =>
      simp only [exec]
      split
      · rfl
      · split
        · rfl
        · split <;> rfl
  | writeOrder id target current started => cases hread
  | readOperation opId action =>
      simp only [exec]
      split
      · rfl
      · split
        · rfl
        · split <;> rfl
  | writeOperation opId workOrderId action status => cases hread
  | readParent workOrderId updated =>
      simp only [exec]
      split
      · rfl
      · split <;> rfl
  | done reply => rfl

theorem exec_read_refl {ph : Phase} (hread : ph.isWrite = false) :
    LifecycleStep db (exec who now db ph).1 := by
  rw [exec_read hread]
  exact .refl db

theorem lifecycleStep_exec (ph : Phase) (hchecked : Checked ph) (hfresh : FreshWrite db ph) :
    LifecycleStep db (exec who now db ph).1 := by
  cases ph with
  | writeOrder id target current started =>
      simp only [exec]
      split
      · exact .refl db
      · rename_i db' updated hset
        exact lifecycleStep_order hset hchecked hfresh
  | writeOperation opId workOrderId action status =>
      cases hr : db.woOperations.lookup opId with
      | none =>
          cases action <;> simp only [exec, startOperation, completeOperation, hr]
          · exact .refl db
          · exact .refl db
      | some r =>
          cases action <;> simp only [exec, startOperation, completeOperation, hr]
          · exact lifecycleStep_operation hr rfl rfl hchecked hfresh
          · exact lifecycleStep_operation hr rfl rfl hchecked hfresh
  | readOrder id target started => exact exec_read_refl rfl
  | readOperation opId action => exact exec_read_refl rfl
  | readParent workOrderId updated => exact exec_read_refl rfl
  | done reply => exact .refl db

end Step

abbrev State := Sessions Database Phase

def step : State → Move Request Int → State := Sessions.step Request.phase exec

/-- The database after the first `k` moves of a run. -/
def databaseAt (db : Database) (run : List (Move Request Int)) (k : ℕ) : Database :=
  ((run.take k).foldl step ⟨db, []⟩).store

theorem lifecycleStep_databaseAt {db : Database} {run : List (Move Request Int)}
    (hfresh : Along step (Sessions.Guarded FreshWrite) ⟨db, []⟩ run) (k : ℕ) :
    LifecycleStep (databaseAt db run k) (databaseAt db run (k + 1)) := by
  refine hfresh.each_step (I := Sessions.Inv (fun _ => True) fun _ _ => Checked)
    (R := fun s s' => LifecycleStep s.store s'.store) (fun s => .refl s.store) ?_
    (Sessions.inv_nil trivial) k
  intro s m hinv hm
  refine ⟨hinv.step_local checked_phase (fun who now db ph _ _ _ => ⟨trivial, checked_exec ph⟩) hm,
    ?_⟩
  rcases Sessions.step_cases Request.phase exec s m with
    ⟨r, -, heq⟩ | heq | ⟨who, now, ph, rfl, hph, heq⟩
  · rw [step, heq]
    exact .refl s.store
  · rw [step, heq]
    exact .refl s.store
  · rw [step, heq]
    exact lifecycleStep_exec ph (hinv.2 who ph hph) (hm.of_thread hph)

/-- What one step keeps of a database, the run keeps from any point on. -/
theorem databaseAt_induction {db : Database} {run : List (Move Request Int)}
    (hfresh : Along step (Sessions.Guarded FreshWrite) ⟨db, []⟩ run) {Q : Database → Prop}
    (hQ : ∀ db db', LifecycleStep db db' → Q db → Q db') {k l : ℕ} (hkl : k ≤ l)
    (hk : Q (databaseAt db run k)) : Q (databaseAt db run l) := by
  induction l, hkl using Nat.le_induction with
  | base => exact hk
  | succ l _ ih => exact hQ _ _ (lifecycleStep_databaseAt hfresh l) ih

/-- In every schedule whose writes find the status their check saw, each order and
each operation only moves along its lifecycle; a cancelled or closed order and a
completed operation never change their status again. -/
theorem lifecycles_of_fresh_writes (db : Database) (run : List (Move Request Int))
    (hfresh : Along step (Sessions.Guarded FreshWrite) ⟨db, []⟩ run) :
    (∀ k, LifecycleStep (databaseAt db run k) (databaseAt db run (k + 1))) ∧
    (∀ k l id, k ≤ l →
      orderStatus (databaseAt db run k) id = some "cancelled" ∨
        orderStatus (databaseAt db run k) id = some "closed" →
      orderStatus (databaseAt db run l) id = orderStatus (databaseAt db run k) id) ∧
    ∀ k l id, k ≤ l → operationStatus (databaseAt db run k) id = some "completed" →
      operationStatus (databaseAt db run l) id = some "completed" := by
  refine ⟨lifecycleStep_databaseAt hfresh, ?_, ?_⟩
  · intro k l id hkl hfinal
    refine databaseAt_induction hfresh
      (Q := fun d => orderStatus d id = orderStatus (databaseAt db run k) id) ?_ hkl rfl
    intro d d' hstep hd
    rw [← hd] at hfinal ⊢
    rcases hfinal with h | h
    · exact (hstep.orders id).final (s := .cancelled) (by rw [h]; rfl)
        (WoStatus.canTransition_of_final (Or.inl rfl))
    · exact (hstep.orders id).final (s := .closed) (by rw [h]; rfl)
        (WoStatus.canTransition_of_final (Or.inr rfl))
  · intro k l id hkl hk
    refine databaseAt_induction hfresh
      (Q := fun d => operationStatus d id = some "completed") ?_ hkl hk
    intro d d' hstep hd
    rw [← hd]
    exact (hstep.operations id).final (s := .completed) (by rw [hd]; rfl)
      OpStatus.canTransition_completed

/-- A draft order with one pending operation. -/
def draftFloor : Database where
  workOrders := ⟨[⟨"wo", "WO-1", "p", none, ⟨10, 0⟩, 100, "draft", none, none, none, 0, 0⟩],
    by decide⟩
  woOperations := ⟨[⟨"op", "wo", none, 10, none, "pending", 0, 0, none, none⟩], by decide⟩

/-- A release and a cancellation read the same draft, and the release writes last.
Two starts read the same pending operation, and the second writes after the
operation has been completed. -/
def lateWrites : List (Move Request Int) :=
  [.call (.release "wo"), .call (.cancel "wo"), .advance 0 1, .advance 1 1, .advance 1 2,
    .advance 0 3, .call (.startOp "op"), .call (.startOp "op"), .call (.completeOp "op"),
    .advance 2 4, .advance 3 4, .advance 2 5, .advance 4 6, .advance 4 7, .advance 3 8]

/-- The cancelled order is released, and the completed operation is in progress again. -/
theorem lateWrites_leave_lifecycle :
    ¬ ((∀ k, LifecycleStep (databaseAt draftFloor lateWrites k)
        (databaseAt draftFloor lateWrites (k + 1))) ∧
      (∀ k l id, k ≤ l →
        orderStatus (databaseAt draftFloor lateWrites k) id = some "cancelled" ∨
          orderStatus (databaseAt draftFloor lateWrites k) id = some "closed" →
        orderStatus (databaseAt draftFloor lateWrites l) id =
          orderStatus (databaseAt draftFloor lateWrites k) id) ∧
      ∀ k l id, k ≤ l →
        operationStatus (databaseAt draftFloor lateWrites k) id = some "completed" →
        operationStatus (databaseAt draftFloor lateWrites l) id = some "completed") ∧
    orderStatus (databaseAt draftFloor lateWrites 5) "wo" = some "cancelled" ∧
    orderStatus (databaseAt draftFloor lateWrites 6) "wo" = some "released" ∧
    operationStatus (databaseAt draftFloor lateWrites 14) "op" = some "completed" ∧
    operationStatus (databaseAt draftFloor lateWrites 15) "op" = some "in_progress" := by
  refine ⟨?_, by decide +kernel, by decide +kernel, by decide +kernel, by decide +kernel⟩
  rintro ⟨-, horder, -⟩
  have h := horder 5 6 "wo" (by decide) (Or.inl (by decide +kernel))
  exact absurd h (by decide +kernel)

/-- The cancellation reads after the release has written. -/
def freshWrites : List (Move Request Int) :=
  [.call (.release "wo"), .call (.cancel "wo"), .advance 0 1, .advance 0 2, .advance 1 3,
    .advance 1 4]

theorem lifecycles_freshWrites :
    orderStatus (databaseAt draftFloor freshWrites 6) "wo" = some "cancelled" ∧
      ∀ l, 6 ≤ l → orderStatus (databaseAt draftFloor freshWrites l) "wo" =
        orderStatus (databaseAt draftFloor freshWrites 6) "wo" := by
  have hcancelled : orderStatus (databaseAt draftFloor freshWrites 6) "wo" = some "cancelled" := by
    decide +kernel
  refine ⟨hcancelled, ?_⟩
  intro l hl
  exact (lifecycles_of_fresh_writes draftFloor freshWrites (by decide +kernel)).2.1 6 l "wo" hl
    (Or.inl hcancelled)

end ElectronixMes.Execution
