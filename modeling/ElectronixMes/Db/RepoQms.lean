import ElectronixMes.Db.RepoTrace
import ElectronixMes.Core.Qms

/-!
# Inspection results and nonconformances

A failed inspection raises a nonconformance and places a hold on the lot and the serial
it names, in one transaction. A disposition closes the open nonconformance and, if it
lets the material move again, releases the holds that are linked to it.
-/

namespace ElectronixMes.Db

open Relational Serde ElectronixMes.Core

structure ResultInput where
  characteristicId : String
  lotId : Option String
  serialId : Option String
  woOperationId : Option String
  measuredValue : Decimal

/-- The insert of an inspection result. -/
def insertResult (db : Database) (now : Int) (id : String) (input : ResultInput)
    (outcome : InspectionOutcome) (inspectedBy : String) :
    Except SqlError (Database × InspectionResultRow) :=
  let row : InspectionResultRow :=
    { id
      characteristicId := input.characteristicId
      lotId := input.lotId
      serialId := input.serialId
      woOperationId := input.woOperationId
      measuredValue := input.measuredValue
      result := outcome.asStr
      inspectedBy := some inspectedBy
      createdAt := now }
  match db.inspectionResults.insert? row with
  | none => .error (.uniqueViolation "inspection_results_pkey")
  | some inspectionResults => do
      optionalRef (fun k => (db.characteristics.lookup k).isSome) "inspection_results"
        "inspection_results_characteristic_id_fkey" (some input.characteristicId)
      optionalRef (fun k => (db.lots.lookup k).isSome) "inspection_results"
        "inspection_results_lot_id_fkey" input.lotId
      optionalRef (fun k => (db.serials.lookup k).isSome) "inspection_results"
        "inspection_results_serial_id_fkey" input.serialId
      optionalRef (fun k => (db.woOperations.lookup k).isSome) "inspection_results"
        "inspection_results_wo_operation_id_fkey" input.woOperationId
      optionalRef (· ∈ db.users) "inspection_results" "inspection_results_inspected_by_fkey"
        (some inspectedBy)
      return ({ db with inspectionResults }, row)

/-- The number of a nonconformance: the first ten characters of its id. -/
def ncrNo (ncrId : String) : String := "NCR-" ++ String.ofList (ncrId.toList.take 10)

/-- The insert of an open nonconformance; its part is the lot's. -/
def insertNcr (db : Database) (now : Int) (id : String) (r : InspectionResultRow) :
    Except SqlError (Database × NcrRow) :=
  let row : NcrRow :=
    { id
      ncrNo := ncrNo id
      inspectionResultId := some r.id
      lotId := r.lotId
      serialId := r.serialId
      partId := r.lotId.bind fun l => (db.lots.lookup l).map LotRow.partId
      status := "open"
      disposition := none
      reason := some "inspection failure"
      dispositionedBy := none
      dispositionedAt := none
      createdAt := now
      updatedAt := now }
  match db.ncrs.insert? row with
  | none => .error (.uniqueViolation "ncrs_pkey")
  | some ncrs =>
      if db.ncrs.rows.any fun n => n.ncrNo = row.ncrNo then
        .error (.uniqueViolation "ncrs_ncr_no_key")
      else do
        optionalRef (fun k => (db.inspectionResults.lookup k).isSome) "ncrs"
          "ncrs_inspection_result_id_fkey" row.inspectionResultId
        optionalRef (fun k => (db.lots.lookup k).isSome) "ncrs" "ncrs_lot_id_fkey" row.lotId
        optionalRef (fun k => (db.serials.lookup k).isSome) "ncrs" "ncrs_serial_id_fkey"
          row.serialId
        optionalRef (· ∈ db.parts) "ncrs" "ncrs_part_id_fkey" row.partId
        return ({ db with ncrs }, row)

/-- The holds of a nonconformance, one for each material; `ids` are drawn in order. -/
def autoHolds (now : Int) (createdBy ncrId : String) :
    (ℕ → String) → Database → List Material → Except SqlError Database
  | _, db, [] => .ok db
  | ids, db, m :: rest => do
      let db ← insertHold db (newHold now (ids 0) m.entityType m.entityId (some "NCR auto-hold")
        createdBy (some ncrId))
      autoHolds now createdBy ncrId (ids ∘ Nat.succ) db rest

/-- Record a measurement; a failed one raises a nonconformance and places its holds. The
ids of the result, the nonconformance and the holds are drawn in this order. -/
def recordResult (db : Database) (now : Int) (ids : ℕ → String) (input : ResultInput)
    (inspectedBy : String) : Except RepoError (Database × InspectionResultRow × Option NcrRow) :=
  match db.characteristics.lookup input.characteristicId with
  | none => .error .notFound
  | some c =>
      let outcome := evaluate input.measuredValue c.lowerLimit c.upperLimit
      match insertResult db now (ids 0) input outcome inspectedBy with
      | .error e => .error (mapSqlx e)
      | .ok (db, result) =>
          if outcome = .fail then
            match insertNcr db now (ids 1) result with
            | .error e => .error (mapSqlx e)
            | .ok (db, ncr) =>
                match autoHolds now inspectedBy ncr.id (fun k => ids (k + 2)) db
                    (Material.named input.lotId input.serialId) with
                | .error e => .error (mapSqlx e)
                | .ok db => .ok (db, result, some ncr)
          else .ok (db, result, none)

def NcrRow.dispositioned (n : NcrRow) (now : Int) (disposition : Disposition)
    (reason : Option String) (actor : String) : NcrRow :=
  { n with
    status := "dispositioned"
    disposition := some disposition.asStr
    reason := reason <|> n.reason
    dispositionedBy := some actor
    dispositionedAt := some now
    updatedAt := now }

/-- Release the active holds of a nonconformance. -/
def releaseNcrHolds (db : Database) (now : Int) (ncrId actor : String) : Database :=
  { db with
    holds := db.holds.modify
      (fun h => if h.ncrId = some ncrId ∧ h.status = "active" then h.released now actor else h)
      (fun h => by
        show HoldRow.id _ = h.id
        split <;> rfl) }

/-- Apply a disposition to an open nonconformance. -/
def dispositionNcr (db : Database) (now : Int) (id : String) (disposition : Disposition)
    (reason : Option String) (actor : String) : Except RepoError (Database × NcrRow) :=
  match db.ncrs.lookup id with
  | none => .error .notFound
  | some n =>
      if n.status = "open" then
        if actor ∈ db.users then
          let row := n.dispositioned now disposition reason actor
          let db := { db with ncrs := db.ncrs.put row }
          if disposition.releasesHold then .ok (releaseNcrHolds db now id actor, row)
          else .ok (db, row)
        else .error (mapSqlx (.foreignKeyViolation "ncrs" "ncrs_dispositioned_by_fkey"))
      else .error .notFound

section Lemmas

variable {db db' : Database} {now : Int}

theorem insertResult_ok {id inspectedBy : String} {input : ResultInput}
    {outcome : InspectionOutcome} {res : Database × InspectionResultRow}
    (h : insertResult db now id input outcome inspectedBy = .ok res) :
    ∃ results, db.inspectionResults.insert? res.2 = some results ∧
      res.1 = { db with inspectionResults := results } ∧ res.2.lotId = input.lotId ∧
      res.2.serialId = input.serialId := by
  unfold insertResult at h
  dsimp only at h
  split at h
  · cases h
  · rename_i results hins
    repeat replace h := of_check h
    cases h
    exact ⟨results, hins, rfl, rfl, rfl⟩

/-- A new nonconformance is open and names the material of its result. -/
theorem insertNcr_ok {id : String} {r : InspectionResultRow} {res : Database × NcrRow}
    (h : insertNcr db now id r = .ok res) :
    ∃ ncrs, db.ncrs.insert? res.2 = some ncrs ∧ res.1 = { db with ncrs } ∧
      res.2.inspectionResultId = some r.id ∧ res.2.lotId = r.lotId ∧
      res.2.serialId = r.serialId ∧ res.2.status = "open" := by
  unfold insertNcr at h
  dsimp only at h
  split at h
  · cases h
  · rename_i ncrs hins
    split at h
    · cases h
    · repeat replace h := of_check h
      cases h
      exact ⟨ncrs, hins, rfl, rfl, rfl, rfl, rfl⟩

theorem insertNcr_no {id : String} {r : InspectionResultRow} {res : Database × NcrRow}
    (h : insertNcr db now id r = .ok res) :
    ¬ (db.ncrs.rows.any fun n => n.ncrNo = res.2.ncrNo) := by
  unfold insertNcr at h
  dsimp only at h
  split at h
  · cases h
  · split at h
    · cases h
    · rename_i hno
      repeat replace h := of_check h
      cases h
      exact hno

/-- The holds of a nonconformance are active and stand on each material. -/
theorem autoHolds_ok {createdBy ncrId : String} {ids : ℕ → String} {materials : List Material}
    (h : autoHolds now createdBy ncrId ids db materials = .ok db') :
    db' = { db with holds := db'.holds } ∧ (∀ k ∈ db.holds, k ∈ db'.holds) ∧
      ∀ m ∈ materials, ∃ k ∈ db'.holds, k.ncrId = some ncrId ∧ k.IsOn m ∧
        k.status = "active" := by
  induction materials generalizing db ids with
  | nil =>
      cases h
      exact ⟨rfl, fun _ hk => hk, fun _ hm => absurd hm List.not_mem_nil⟩
  | cons m rest ih =>
      rw [autoHolds] at h
      cases hins : insertHold db (newHold now (ids 0) m.entityType m.entityId
          (some "NCR auto-hold") createdBy (some ncrId)) with
      | error e =>
          rw [hins] at h
          cases h
      | ok db₁ =>
          rw [hins] at h
          obtain ⟨holds, hnew, rfl⟩ := insertHold_ok hins
          obtain ⟨hframe, hkept, hplaced⟩ := ih h
          refine ⟨hframe, ?_, ?_⟩
          · intro k hk
            exact hkept k ((Table.mem_insert? hnew).mpr (Or.inl hk))
          · intro m' hm'
            rcases List.mem_cons.mp hm' with rfl | hm'
            · exact ⟨_, hkept _ ((Table.mem_insert? hnew).mpr (Or.inr rfl)), rfl, ⟨rfl, rfl⟩, rfl⟩
            · exact hplaced m' hm'

/-- What a recorded result adds: itself, and when it failed an open nonconformance of its
material with active holds. -/
theorem recordResult_ok {ids : ℕ → String} {input : ResultInput} {inspectedBy : String}
    {res : Database × InspectionResultRow × Option NcrRow}
    (h : recordResult db now ids input inspectedBy = .ok res) :
    ∃ results, db.inspectionResults.insert? res.2.1 = some results ∧
      (res.1 = { db with inspectionResults := results } ∨
        ∃ n ncrs, db.ncrs.insert? n = some ncrs ∧ n.inspectionResultId = some res.2.1.id ∧
          n.lotId = res.2.1.lotId ∧ n.serialId = res.2.1.serialId ∧
          res.1 = { db with inspectionResults := results, ncrs, holds := res.1.holds } ∧
          (∀ k ∈ db.holds, k ∈ res.1.holds) ∧
          ∀ m ∈ Material.named n.lotId n.serialId, ∃ k ∈ res.1.holds,
            k.ncrId = some n.id ∧ k.IsOn m ∧ k.status = "active") := by
  unfold recordResult at h
  split at h
  · cases h
  · dsimp only at h
    split at h
    · cases h
    · rename_i hresult
      obtain ⟨results, hins, hdb, hlot, hserial⟩ := insertResult_ok hresult
      dsimp only at hins hdb hlot hserial
      subst hdb
      split at h
      · split at h
        · cases h
        · rename_i hncr
          obtain ⟨ncrs, hinsNcr, hdb, hlink, hnlot, hnserial, -⟩ := insertNcr_ok hncr
          dsimp only at hinsNcr hdb hlink hnlot hnserial
          subst hdb
          split at h
          · cases h
          · rename_i hholds
            cases h
            obtain ⟨hframe, hkept, hplaced⟩ := autoHolds_ok hholds
            refine ⟨results, hins, Or.inr ⟨_, ncrs, hinsNcr, hlink, hnlot, hnserial, hframe, hkept,
              ?_⟩⟩
            rw [hnlot, hnserial, hlot, hserial]
            exact hplaced
      · cases h
        exact ⟨results, hins, Or.inl rfl⟩

/-- The holds of the other nonconformances stay as they are. -/
theorem mem_releaseNcrHolds_of_ne {ncrId actor : String} {h : HoldRow} (hmem : h ∈ db.holds)
    (hne : h.ncrId ≠ some ncrId) : h ∈ (releaseNcrHolds db now ncrId actor).holds := by
  unfold releaseNcrHolds
  rw [Table.mem_modify]
  exact ⟨h, hmem, if_neg fun hsame => hne hsame.1⟩

/-- A disposition is of an open nonconformance; one that lets the material move releases
its holds. -/
theorem dispositionNcr_ok {id actor : String} {disposition : Disposition}
    {reason : Option String} {res : Database × NcrRow}
    (h : dispositionNcr db now id disposition reason actor = .ok res) :
    ∃ n, db.ncrs.lookup id = some n ∧ n.status = "open" ∧
      res.1.inspectionResults = db.inspectionResults ∧
      res.1.ncrs = db.ncrs.put (n.dispositioned now disposition reason actor) ∧
      res.1.holds =
        if disposition.releasesHold then (releaseNcrHolds db now id actor).holds
        else db.holds := by
  unfold dispositionNcr at h
  split at h
  · cases h
  · rename_i n hn
    split at h
    · rename_i hopen
      split at h
      · dsimp only at h
        split at h
        · rename_i hreleases
          cases h
          exact ⟨n, hn, hopen, rfl, rfl, (if_pos hreleases).symm⟩
        · rename_i hkeeps
          cases h
          exact ⟨n, hn, hopen, rfl, rfl, (if_neg hkeeps).symm⟩
      · cases h
    · cases h

end Lemmas

end ElectronixMes.Db
