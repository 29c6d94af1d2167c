import ElectronixMes.Db.RepoOrders
import ElectronixMes.Core.WorkOrder

/-!
# Work-order transitions on the edge

`transitionWo` reads the order, checks the transition and writes the status.
`startOp` starts an operation and, as a separate write, advances a released
parent order. Neither is one transaction, so both return a database next to
their response. The audit log and the published events are not modelled.
-/

namespace ElectronixMes.Edge

open Db ElectronixMes.Core Relational

/-- Validate and apply a work-order status transition. -/
def transitionWo (db : Database) (now : Int) (id : String) (target : WoStatus) :
    Database × Except ApiErr WorkOrderRow :=
  match getWorkOrder db id with
  | .error e => (db, .error (repoErr e))
  | .ok wo =>
      match WoStatus.parse wo.status with
      | none => (db, .error ⟨500, "internal", "unknown stored status"⟩)
      | some current =>
          if current.canTransition target then
            match setWorkOrderStatus db id target.asStr now with
            | .error e => (db, .error (repoErr e))
            | .ok (db, updated) => (db, .ok updated)
          else
            (db, .error ⟨409, "invalid_transition",
              "cannot move work order from " ++ current.asStr ++ " to " ++ target.asStr⟩)

/-- Start an operation, advancing its released order on the first start. -/
def startOp (db : Database) (now : Int) (opId : String) :
    Database × Except ApiErr WoOperationRow :=
  match getOperation db opId with
  | .error e => (db, .error (repoErr e))
  | .ok op =>
      match OpStatus.parse op.status with
      | none => (db, .error ⟨500, "internal", "unknown operation status"⟩)
      | some status =>
          if status.canTransition .inProgress then
            match startOperation db opId now with
            | .error e => (db, .error (repoErr e))
            | .ok (db, updated) =>
                match getWorkOrder db op.workOrderId with
                | .error e => (db, .error (repoErr e))
                | .ok wo =>
                    if WoStatus.parse wo.status = some .released then
                      match transitionWo db now op.workOrderId .inProgress with
                      | (db, .error e) => (db, .error e)
                      | (db, .ok _) => (db, .ok updated)
                    else (db, .ok updated)
          else
            (db, .error ⟨409, "invalid_transition",
              "operation cannot be started from its current status"⟩)

/-- A transition leaves the database alone or writes the status of an order that
admits it. -/
theorem transitionWo_cases (db : Database) (now : Int) (id : String) (target : WoStatus) :
    (transitionWo db now id target).1 = db ∨
    ∃ old current, db.workOrders.lookup id = some old ∧
      WoStatus.parse old.status = some current ∧ current.canTransition target = true ∧
      transitionWo db now id target =
        ({ db with workOrders := db.workOrders.put (old.withStatus target.asStr now) },
          .ok (old.withStatus target.asStr now)) := by
  unfold transitionWo getWorkOrder setWorkOrderStatus
  cases hold : db.workOrders.lookup id with
  | none => exact Or.inl rfl
  | some old =>
      dsimp only
      cases hparse : WoStatus.parse old.status with
      | none => exact Or.inl rfl
      | some current =>
          by_cases hcan : current.canTransition target = true
          · exact Or.inr ⟨old, current, rfl, hparse, hcan, by simp only [hcan, if_true]⟩
          · exact Or.inl (by simp only [hcan, Bool.false_eq_true, if_false])

/-- A start leaves the database alone, or writes the operation and, when the order
it finds is released, the order. -/
theorem startOp_cases (db : Database) (now : Int) (opId : String) :
    (startOp db now opId).1 = db ∨
    ∃ op, db.woOperations.lookup opId = some op ∧ OpStatus.parse op.status = some .pending ∧
      (((∀ wo, db.workOrders.lookup op.workOrderId = some wo →
          WoStatus.parse wo.status ≠ some .released) ∧
        (startOp db now opId).1 =
          { db with woOperations := db.woOperations.put (op.started now) }) ∨
      ∃ wo, db.workOrders.lookup op.workOrderId = some wo ∧
        WoStatus.parse wo.status = some .released ∧
        (startOp db now opId).1 =
          { db with
            woOperations := db.woOperations.put (op.started now)
            workOrders := db.workOrders.put (wo.withStatus WoStatus.inProgress.asStr now) }) := by
  unfold startOp getOperation startOperation
  cases hop : db.woOperations.lookup opId with
  | none => exact Or.inl rfl
  | some op =>
      dsimp only
      cases hparse : OpStatus.parse op.status with
      | none => exact Or.inl rfl
      | some status =>
          cases status with
          | pending =>
              refine Or.inr ⟨op, rfl, hparse, ?_⟩
              simp only [OpStatus.canTransition, if_true, getWorkOrder]
              cases hwo : db.workOrders.lookup op.workOrderId with
              | none =>
                  refine Or.inl ⟨?_, rfl⟩
                  rintro wo ⟨⟩
              | some wo =>
                  by_cases hreleased : WoStatus.parse wo.status = some .released
                  · refine Or.inr ⟨wo, rfl, hreleased, ?_⟩
                    simp only [hreleased, if_true, transitionWo, getWorkOrder,
                      setWorkOrderStatus, hwo, WoStatus.canTransition]
                  · refine Or.inl ⟨?_, by simp only [hreleased, if_false]⟩
                    rintro _ ⟨⟩
                    exact hreleased
          | inProgress => exact Or.inl rfl
          | completed => exact Or.inl rfl

/-- Of all that is synced, a local write touches at most the status of one
stored order, which it moves along an allowed transition. -/
structure StatusOnly (allowed : String → WoStatus → Prop) (db db' : Database) : Prop where
  orders : db'.workOrders = db.workOrders ∨
    ∃ old ∈ db.workOrders, ∃ current target now, WoStatus.parse old.status = some current ∧
      current.canTransition target = true ∧ allowed old.id target ∧
      db'.workOrders = db.workOrders.put (old.withStatus target.asStr now)
  outbox : db'.outbox = db.outbox
  applied : db'.appliedEntries = db.appliedEntries
  parts : db'.parts = db.parts
  routings : db'.routings = db.routings

section StatusOnly

variable {allowed : String → WoStatus → Prop} {db db' : Database}

theorem StatusOnly.refl (allowed : String → WoStatus → Prop) (db : Database) :
    StatusOnly allowed db db :=
  ⟨Or.inl rfl, rfl, rfl, rfl, rfl⟩

theorem StatusOnly.mono {allowed' : String → WoStatus → Prop} (h : StatusOnly allowed db db')
    (himp : ∀ id target, allowed id target → allowed' id target) :
    StatusOnly allowed' db db' := by
  refine ⟨?_, h.outbox, h.applied, h.parts, h.routings⟩
  rcases h.orders with horders | ⟨old, hold, current, target, now, hparse, hcan, hallowed, horders⟩
  · exact Or.inl horders
  · exact Or.inr ⟨old, hold, current, target, now, hparse, hcan, himp _ _ hallowed, horders⟩

/-- No transition leads back to a draft. -/
theorem StatusOnly.not_draft (h : StatusOnly allowed db db') {id : String}
    (hmoved : ∃ r ∈ db.workOrders, r.id = id ∧ r.status ≠ "draft") :
    ∃ r ∈ db'.workOrders, r.id = id ∧ r.status ≠ "draft" := by
  obtain ⟨r, hr, hid, hstatus⟩ := hmoved
  rcases h.orders with horders | ⟨old, hold, current, target, now, -, hcan, -, horders⟩
  · rw [horders]
    exact ⟨r, hr, hid, hstatus⟩
  · rw [horders]
    by_cases heq : r.id = old.id
    · refine ⟨_, Table.mem_put_self _ _, heq.symm.trans hid, ?_⟩
      intro hdraft
      exact WoStatus.canTransition_ne_draft hcan (WoStatus.asStr_injective hdraft)
    · exact ⟨r, Table.mem_put.mpr (Or.inr ⟨hr, heq⟩), hid, hstatus⟩

/-- A draft stays one when no allowed transition of it is one of a draft. -/
theorem StatusOnly.draft (h : StatusOnly allowed db db') {id : String}
    (hdraft : ∀ r ∈ db.workOrders, r.id = id → r.status = "draft")
    (hnot : ∀ old ∈ db.workOrders, ∀ target, old.id = id → allowed old.id target →
      WoStatus.draft.canTransition target = false) :
    ∀ r ∈ db'.workOrders, r.id = id → r.status = "draft" := by
  rcases h.orders with horders | ⟨old, hold, current, target, now, hparse, hcan, hallowed, horders⟩
  · rw [horders]
    exact hdraft
  · rw [horders]
    intro r hr hid
    rcases Table.mem_put.mp hr with rfl | ⟨hr, -⟩
    · rw [hdraft old hold hid] at hparse
      cases hparse
      rw [hnot old hold target hid hallowed] at hcan
      cases hcan
    · exact hdraft r hr hid

end StatusOnly

theorem transitionWo_statusOnly (db : Database) (now : Int) (id : String) (target : WoStatus) :
    StatusOnly (fun i t => i = id ∧ t = target) db (transitionWo db now id target).1 := by
  unfold transitionWo getWorkOrder setWorkOrderStatus
  cases hold : db.workOrders.lookup id with
  | none => exact StatusOnly.refl _ db
  | some old =>
      dsimp only
      split
      · exact StatusOnly.refl _ db
      · rename_i current hparse
        split
        · rename_i hcan
          obtain ⟨hmem, hid⟩ := Table.lookup_eq_some.mp hold
          exact ⟨Or.inr ⟨old, hmem, current, target, now, hparse, hcan, ⟨hid, rfl⟩, rfl⟩,
            rfl, rfl, rfl, rfl⟩
        · exact StatusOnly.refl _ db

/-- A transition that a stored order admits is made. -/
theorem transitionWo_of_can {db : Database} {id : String} {old : WorkOrderRow}
    {current target : WoStatus} (hold : db.workOrders.lookup id = some old)
    (hparse : WoStatus.parse old.status = some current)
    (hcan : current.canTransition target = true) (now : Int) :
    (transitionWo db now id target).1.workOrders =
      db.workOrders.put (old.withStatus target.asStr now) := by
  unfold transitionWo getWorkOrder setWorkOrderStatus
  rw [hold]
  dsimp only
  rw [hparse]
  dsimp only
  rw [if_pos hcan]

theorem startOp_statusOnly (db : Database) (now : Int) (opId : String) :
    StatusOnly (fun _ t => t = .inProgress) db (startOp db now opId).1 := by
  unfold startOp getOperation startOperation
  cases db.woOperations.lookup opId with
  | none => exact StatusOnly.refl _ db
  | some op =>
      dsimp only
      split
      · exact StatusOnly.refl _ db
      · split
        · split
          · exact ⟨Or.inl rfl, rfl, rfl, rfl, rfl⟩
          · split
            · -- the advance runs on the state the operation's write left
              have hadvance := (transitionWo_statusOnly
                { db with woOperations := db.woOperations.put (op.started now) } now
                op.workOrderId .inProgress).mono fun _ _ h => h.2
              split
              · rename_i h
                rw [h] at hadvance
                exact ⟨hadvance.orders, hadvance.outbox, hadvance.applied, hadvance.parts,
                  hadvance.routings⟩
              · rename_i h
                rw [h] at hadvance
                exact ⟨hadvance.orders, hadvance.outbox, hadvance.applied, hadvance.parts,
                  hadvance.routings⟩
            · exact ⟨Or.inl rfl, rfl, rfl, rfl, rfl⟩
        · exact StatusOnly.refl _ db

end ElectronixMes.Edge
