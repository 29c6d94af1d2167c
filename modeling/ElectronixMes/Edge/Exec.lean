import ElectronixMes.Edge.Orders

/-!
# Operator execution

Completing operations and orders and recording counts; `startOp` stands with the
order transitions it makes. The audit log, the published events, the live
OEE snapshot after a count and the program transfer that a completed operation
may schedule are not modelled here: none of them writes an order, an operation or
the ledger.
-/

namespace ElectronixMes.Edge

open Db ElectronixMes.Core Relational

structure CountInput where
  good : Int32
  scrap : Int32
  scrapReasonId : Option String
  ts : Option Int
  deriving DecidableEq

/-- The checks of a count that need no database. -/
def CountInput.check (input : CountInput) : Except ApiErr Unit :=
  if input.good < 0 ∨ input.scrap < 0 then
    .error ⟨400, "bad_request", "counts must be non-negative"⟩
  else if 0 < input.scrap ∧ input.scrapReasonId = none then
    .error ⟨400, "scrap_reason_required", "a scrap_reason_id is required when scrap > 0"⟩
  else .ok ()

theorem CountInput.check_ok {input : CountInput} (h : input.check = .ok ()) :
    0 < input.scrap → input.scrapReasonId.isSome := by
  unfold check at h
  intro hscrap
  by_contra hnone
  rw [Option.not_isSome_iff_eq_none] at hnone
  split at h
  · cases h
  · rw [if_pos ⟨hscrap, hnone⟩] at h
    cases h

/-- Record a count against an operation; `id` is drawn for the ledger row. -/
def recordCount (db : Database) (now : Int) (id opId : String) (input : CountInput) :
    Database × Except ApiErr WoOperationRow :=
  match input.check with
  | .error e => (db, .error e)
  | .ok () =>
      match getOperation db opId with
      | .error e => (db, .error (repoErr e))
      | .ok op =>
          match op.workCenterId with
          | none =>
              (db, .error ⟨400, "no_work_center",
                "operation has no work center to attribute counts to"⟩)
          | some wcId =>
              match Db.recordCount db id opId wcId input.good input.scrap input.scrapReasonId
                  (input.ts.getD now) with
              | .error e => (db, .error (repoErr e))
              | .ok (db, updated) => (db, .ok updated)

/-- Complete an operation. -/
def completeOp (db : Database) (now : Int) (opId : String) :
    Database × Except ApiErr WoOperationRow :=
  match getOperation db opId with
  | .error e => (db, .error (repoErr e))
  | .ok op =>
      match OpStatus.parse op.status with
      | none => (db, .error ⟨500, "internal", "unknown operation status"⟩)
      | some status =>
          if status.canTransition .completed then
            match completeOperation db opId now with
            | .error e => (db, .error (repoErr e))
            | .ok (db, updated) => (db, .ok updated)
          else
            (db, .error ⟨409, "invalid_transition",
              "operation cannot be completed from its current status"⟩)

/-- A completion leaves the database alone or writes an operation in progress. -/
theorem completeOp_cases (db : Database) (now : Int) (opId : String) :
    (completeOp db now opId).1 = db ∨
    ∃ op, db.woOperations.lookup opId = some op ∧
      OpStatus.parse op.status = some .inProgress ∧
      (completeOp db now opId).1 =
        { db with woOperations := db.woOperations.put (op.completed now) } := by
  unfold completeOp getOperation completeOperation
  cases hop : db.woOperations.lookup opId with
  | none => exact Or.inl rfl
  | some op =>
      dsimp only
      cases hparse : OpStatus.parse op.status with
      | none => exact Or.inl rfl
      | some status =>
          cases status with
          | pending => exact Or.inl rfl
          | inProgress => exact Or.inr ⟨op, rfl, hparse, rfl⟩
          | completed => exact Or.inl rfl

/-- A count leaves the database alone or adds one ledger row and the operation's
new totals. -/
theorem recordCount_cases (db : Database) (now : Int) (id opId : String) (input : CountInput) :
    (recordCount db now id opId input).1 = db ∨
    ∃ op wcId op' productionCounts, db.woOperations.lookup opId = some op ∧
      op.workCenterId = some wcId ∧ input.check = .ok () ∧
      insertCount db (countRow id opId wcId input.good input.scrap input.scrapReasonId
        (input.ts.getD now)) = .ok productionCounts ∧
      addCount op input.good input.scrap = .ok op' ∧
      (recordCount db now id opId input).1 =
        { db with productionCounts, woOperations := db.woOperations.put op' } := by
  unfold recordCount getOperation
  split
  · exact Or.inl rfl
  · rename_i hcheck
    cases hop : db.woOperations.lookup opId with
    | none => exact Or.inl rfl
    | some op =>
        dsimp only
        cases hwc : op.workCenterId with
        | none => exact Or.inl rfl
        | some wcId =>
            dsimp only [Db.recordCount]
            cases hins : insertCount db (countRow id opId wcId input.good input.scrap
                input.scrapReasonId (input.ts.getD now)) with
            | error e => exact Or.inl rfl
            | ok productionCounts =>
                simp only [hop]
                cases hadd : addCount op input.good input.scrap with
                | error e => exact Or.inl rfl
                | ok op' =>
                    exact Or.inr ⟨op, wcId, op', productionCounts, rfl, hwc, hcheck, hins, hadd,
                      rfl⟩

def releaseOrder (db : Database) (now : Int) (id : String) :
    Database × Except ApiErr WorkOrderRow :=
  transitionWo db now id .released

def cancelOrder (db : Database) (now : Int) (id : String) : Database × Except ApiErr WorkOrderRow :=
  transitionWo db now id .cancelled

def closeOrder (db : Database) (now : Int) (id : String) : Database × Except ApiErr WorkOrderRow :=
  transitionWo db now id .closed

def completeWo (db : Database) (now : Int) (id : String) : Database × Except ApiErr WorkOrderRow :=
  transitionWo db now id .completed

end ElectronixMes.Edge
