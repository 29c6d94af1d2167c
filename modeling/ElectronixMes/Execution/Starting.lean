import ElectronixMes.Execution.Lifecycles

/-!
# Failed starts

A start marks the operation, reads its order and moves the order on when it finds
it released. Each statement commits alone, and the order is read a second time
before it is moved. So a start that meets an error after its first write leaves
the operation started; it leaves nothing exactly when, once it has changed
something, none of its later statements fails or finds the order gone or moved.
-/

namespace ElectronixMes.Execution

open Db ElectronixMes.Core Edge Relational Transition

namespace Starting

/-- What starts change: the status of the orders, status and start of the operations. -/
def progress (db : Database) : List (String × String) × List (String × String × Option Int) :=
  (db.workOrders.rows.map fun r => (r.id, r.status),
    db.woOperations.rows.map fun r => (r.id, r.status, r.startedAt))

/-- A session with a record of what it is for and whether its statements have changed
anything. -/
structure Session where
  phase : Phase
  starting : Bool
  changed : Bool

/-- The time of a statement, and the error that it is made to fail with. -/
structure Input where
  now : Int
  failure : Option SqlError

def session (r : Request) : Session where
  phase := r.phase
  starting := match r with
    | .startOp _ => true
    | _ => false
  changed := false

def Failed (ph : Phase) : Prop := ∃ e, ph = .done (.error e)

def Open : Phase → Prop
  | .done _ => False
  | _ => True

/-- One statement that may fail. A failed statement has no effect and ends its request. -/
def attempt (who : ℕ) (input : Input) (db : Database) (s : Session) : Database × Session :=
  match input.failure with
  | none =>
      let (db', phase) := exec who input.now db s.phase
      (db', { s with phase, changed := s.changed || decide (progress db ≠ progress db') })
  | some e =>
      match s.phase with
      | .done _ => (db, s)
      | _ => (db, { s with phase := .done (.error (repoErr (mapSqlx e))) })

abbrev State := Sessions Database Session

def step : State → Move Request Input → State := Sessions.step session attempt

/-- Without failures the sessions are those of the lifecycles. -/
theorem map_run_of_no_failure (db : Database) (run : List (Move Request Int)) :
    Sessions.map Session.phase ((run.map (Move.map fun now => ⟨now, none⟩)).foldl step ⟨db, []⟩) =
      run.foldl Execution.step ⟨db, []⟩ := by
  apply Sessions.map_run Session.phase
  · intro r
    rfl
  · intro who now db s
    rfl

/-- The statement finds the row it is about, and the status it asks for when it checks one. -/
def Finds (db : Database) : Phase → Prop
  | .readOrder id target _ => ∃ current, (orderStatus db id).bind WoStatus.parse = some current ∧
      current.canTransition target = true
  | .writeOrder id _ _ _ => (orderStatus db id).isSome
  | .readOperation opId action => ∃ status,
      (operationStatus db opId).bind OpStatus.parse = some status ∧
        status.canTransition action.target = true
  | .writeOperation opId _ _ _ => (operationStatus db opId).isSome
  | .readParent workOrderId _ => (orderStatus db workOrderId).isSome
  | .done _ => True

/-- Once a start has changed something, its next statement does not fail and finds what it
needs. -/
def GoesOn (s : State) : Move Request Input → Prop
  | .call _ => True
  | .advance who input => ∀ t : Session, s.threads[who]? = some t → t.starting = true →
      t.changed = true → Open t.phase → input.failure = none ∧ Finds s.store t.phase

/-- No start that has failed has changed anything. -/
def NothingLeft (s : State) : Prop :=
  ∀ (i : ℕ) (t : Session), s.threads[i]? = some t → t.starting = true → Failed t.phase →
    t.changed = false

section Statement

variable {who : ℕ} {now : Int} {db : Database} {ph : Phase}

/-- A statement that does not find what it needs fails and has no effect. -/
theorem exec_of_not_finds (h : ¬ Finds db ph) :
    (exec who now db ph).1 = db ∧ Failed (exec who now db ph).2 := by
  cases ph with
  | readOrder id target started =>
      cases hr : db.workOrders.lookup id with
      | none => simp [exec, getWorkOrder, hr, fail, Failed]
      | some r =>
          cases hs : WoStatus.parse r.status with
          | none => simp [exec, getWorkOrder, hr, hs, fail, Failed]
          | some current =>
              have hcan : ¬ current.canTransition target = true := by
                intro hcan
                apply h
                refine ⟨current, ?_, hcan⟩
                simp [orderStatus, hr, hs]
              simp [exec, getWorkOrder, hr, hs, hcan, fail, Failed]
  | writeOrder id target current started =>
      cases hr : db.workOrders.lookup id with
      | none => simp [exec, setWorkOrderStatus, hr, fail, Failed]
      | some r => simp [Finds, orderStatus, hr] at h
  | readOperation opId action =>
      cases hr : db.woOperations.lookup opId with
      | none => simp [exec, getOperation, hr, fail, Failed]
      | some r =>
          cases hs : OpStatus.parse r.status with
          | none => simp [exec, getOperation, hr, hs, fail, Failed]
          | some status =>
              have hcan : ¬ status.canTransition action.target = true := by
                intro hcan
                apply h
                refine ⟨status, ?_, hcan⟩
                simp [operationStatus, hr, hs]
              simp [exec, getOperation, hr, hs, hcan, fail, Failed]
  | writeOperation opId workOrderId action status =>
      cases hr : db.woOperations.lookup opId with
      | none => cases action <;> simp [exec, startOperation, completeOperation, hr, fail, Failed]
      | some r => simp [Finds, operationStatus, hr] at h
  | readParent workOrderId updated =>
      cases hr : db.workOrders.lookup workOrderId with
      | none => simp [exec, getWorkOrder, hr, fail, Failed]
      | some r => simp [Finds, orderStatus, hr] at h
  | done reply => exact absurd trivial h

theorem not_failed_of_finds (hopen : Open ph) (h : Finds db ph) :
    ¬ Failed (exec who now db ph).2 := by
  rintro ⟨e, he⟩
  cases ph with
  | readOrder id target started =>
      obtain ⟨current, hcurrent, hcan⟩ := h
      cases hr : db.workOrders.lookup id with
      | none => simp [orderStatus, hr] at hcurrent
      | some r =>
          simp only [orderStatus, hr, Option.map_some, Option.bind_some] at hcurrent
          simp [exec, getWorkOrder, hr, hcurrent, hcan] at he
  | writeOrder id target current started =>
      cases hr : db.workOrders.lookup id with
      | none => simp [Finds, orderStatus, hr] at h
      | some r => simp [exec, setWorkOrderStatus, hr] at he
  | readOperation opId action =>
      obtain ⟨status, hstatus, hcan⟩ := h
      cases hr : db.woOperations.lookup opId with
      | none => simp [operationStatus, hr] at hstatus
      | some r =>
          simp only [operationStatus, hr, Option.map_some, Option.bind_some] at hstatus
          simp [exec, getOperation, hr, hstatus, hcan] at he
  | writeOperation opId workOrderId action status =>
      cases hr : db.woOperations.lookup opId with
      | none => simp [Finds, operationStatus, hr] at h
      | some r => cases action <;> simp [exec, startOperation, completeOperation, hr] at he
  | readParent workOrderId updated =>
      cases hr : db.workOrders.lookup workOrderId with
      | none => simp [Finds, orderStatus, hr] at h
      | some r =>
          by_cases hreleased : WoStatus.parse r.status = some .released <;>
            simp [exec, getWorkOrder, hr, hreleased] at he
  | done reply => exact hopen

variable {input : Input} {t : Session}

@[simp] theorem attempt_starting : (attempt who input db t).2.starting = t.starting := by
  unfold attempt
  split
  · rfl
  · split <;> rfl

/-- A request that has been answered stays as it is. -/
theorem attempt_of_not_open (h : ¬ Open t.phase) : (attempt who input db t).2 = t := by
  obtain ⟨ph, starting, changed⟩ := t
  cases ph with
  | done reply =>
      unfold attempt
      split
      · simp [exec]
      · rfl
  | readOrder | writeOrder | readOperation | writeOperation | readParent => exact absurd trivial h

/-- A statement goes wrong exactly when it fails or does not find what it needs, and then the
session has changed what it had changed before. -/
theorem attempt_failed_iff (hopen : Open t.phase) :
    Failed (attempt who input db t).2.phase ↔ ¬ (input.failure = none ∧ Finds db t.phase) := by
  obtain ⟨now, failure⟩ := input
  cases failure with
  | some e =>
      have hfailed : Failed (attempt who ⟨now, some e⟩ db t).2.phase := by
        unfold attempt
        dsimp only
        split
        · rename_i hdone
          simp [hdone, Open] at hopen
        · exact ⟨_, rfl⟩
      simp [hfailed]
  | none =>
      constructor
      · rintro hfailed ⟨-, hfinds⟩
        exact @not_failed_of_finds who now db t.phase hopen hfinds hfailed
      · intro h
        have hnot : ¬ Finds db t.phase := by
          intro hfinds
          exact h ⟨rfl, hfinds⟩
        exact (@exec_of_not_finds who now db t.phase hnot).2

theorem attempt_changed_of_failed (hopen : Open t.phase)
    (h : Failed (attempt who input db t).2.phase) :
    (attempt who input db t).2.changed = t.changed := by
  rw [attempt_failed_iff hopen] at h
  obtain ⟨now, failure⟩ := input
  cases failure with
  | some e =>
      unfold attempt
      dsimp only
      split <;> rfl
  | none =>
      have hdb := (@exec_of_not_finds who now db t.phase fun hfinds => h ⟨rfl, hfinds⟩).1
      simp [attempt, hdb]

end Statement

section Runs

variable {s : State} {m : Move Request Input}

theorem nothingLeft_step (h : NothingLeft s) (hgoes : GoesOn s m) : NothingLeft (step s m) := by
  intro i u hu hstart hfailed
  rcases Sessions.thread_cases session attempt s m hu with
    hsame | ⟨r, -, rfl⟩ | ⟨input, t, rfl, ht, rfl⟩
  · exact h i u hsame hstart hfailed
  · rfl
  · rw [attempt_starting] at hstart
    by_cases hopen : Open t.phase
    · rw [attempt_changed_of_failed hopen hfailed]
      rw [attempt_failed_iff hopen] at hfailed
      -- a start that has changed something does not fail under the condition
      by_contra hchanged
      rw [Bool.not_eq_false] at hchanged
      exact hfailed (hgoes t ht hstart hchanged hopen)
    · rw [attempt_of_not_open hopen] at hfailed ⊢
      exact h i t ht hstart hfailed

theorem goesOn_of_nothingLeft (hnext : NothingLeft (step s m)) : GoesOn s m := by
  cases m with
  | call r => trivial
  | advance who input =>
      intro t ht hstart hchanged hopen
      have hu : (step s (.advance who input)).threads[who]? =
          some (attempt who input s.store t).2 := by
        simp only [step, Sessions.step, ht]
        exact List.getElem?_set_self (List.getElem?_eq_some_iff.mp ht).1
      by_contra hwrong
      have hfailed : Failed (attempt who input s.store t).2.phase :=
        (attempt_failed_iff hopen).mpr hwrong
      have hkept := hnext who _ hu (by simpa using hstart) hfailed
      rw [attempt_changed_of_failed hopen hfailed, hchanged] at hkept
      cases hkept

/-- A released order with one pending operation. -/
def releasedFloor : Database where
  workOrders := ⟨[⟨"wo", "WO-1", "p", none, ⟨10, 0⟩, 100, "released", none, none, none, 0, 0⟩],
    by decide⟩
  woOperations := ⟨[⟨"op", "wo", none, 10, none, "pending", 0, 0, none, none⟩],
    List.nodup_singleton _⟩

/-- The order is cancelled between the two times the start reads it. -/
def cancelledBetween : List (Move Request Input) :=
  [.call (.startOp "op"), .call (.cancel "wo"), .advance 0 ⟨1, none⟩, .advance 0 ⟨2, none⟩,
    .advance 0 ⟨3, none⟩, .advance 1 ⟨4, none⟩, .advance 1 ⟨5, none⟩, .advance 0 ⟨6, none⟩]

end Runs

end Starting

end ElectronixMes.Execution
