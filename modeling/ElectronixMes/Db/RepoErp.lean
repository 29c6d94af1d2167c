import ElectronixMes.Db.RepoCmms

/-!
# ERP connections and pushed requests (crates/mes-db/src/repo_erp.rs)

The connection a sync run reads, the log it writes, and the move of pushed procurement
requests to `sent_to_erp`.
-/

namespace ElectronixMes.Db

open Relational ElectronixMes.Core Serde

/-- The connection with its encrypted token. -/
def getConnectionSecret (db : CmmsDatabase) (id : String) : Except RepoError ErpConnectionRow :=
  match db.erpConnections.lookup id with
  | none => .error .notFound
  | some conn => .ok conn

/-- Append a line to the sync log. -/
def insertSyncLog (db : CmmsDatabase) (now : Int) (id connectionId direction entity : String)
    (recordCount : Int32) (status : String) (detail : Option String) :
    Except RepoError CmmsDatabase :=
  match db.erpSyncLog.insert?
      ⟨id, some connectionId, direction, entity, recordCount, status, detail, now⟩ with
  | none => .error (mapSqlx (.uniqueViolation "erp_sync_log_pkey"))
  | some erpSyncLog =>
      match optionalRef (fun k => (db.erpConnections.lookup k).isSome) "erp_sync_log"
          "erp_sync_log_connection_id_fkey" (some connectionId) with
      | .error e => .error (mapSqlx e)
      | .ok () => .ok { db with erpSyncLog }

/-- The `UPDATE` of one request: only one that is still `requested` moves. -/
def ProcurementRow.sent (ids : List String) (now : Int) (erpReference : Option String)
    (r : ProcurementRow) : ProcurementRow :=
  if r.id ∈ ids ∧ r.status = "requested" then
    { r with
      status := "sent_to_erp"
      erpReference := erpReference <|> r.erpReference
      pushedAt := some now
      updatedAt := now }
  else r

@[simp] theorem ProcurementRow.sent_id (ids : List String) (now : Int)
    (erpReference : Option String) (r : ProcurementRow) :
    (r.sent ids now erpReference).id = r.id := by
  unfold ProcurementRow.sent
  split <;> rfl

theorem ProcurementRow.sent_cases (ids : List String) (now : Int) (erpReference : Option String)
    (r : ProcurementRow) :
    r.sent ids now erpReference = r ∨
      r.id ∈ ids ∧ r.status = "requested" ∧
        (r.sent ids now erpReference).status = "sent_to_erp" := by
  unfold ProcurementRow.sent
  split
  · rename_i h
    exact Or.inr ⟨h.1, h.2, rfl⟩
  · exact Or.inl rfl

theorem ProcurementRow.sent_status_ne {ids : List String} {now : Int}
    {erpReference : Option String} {r : ProcurementRow} (h : r.id ∈ ids) :
    (r.sent ids now erpReference).status ≠ "requested" := by
  unfold ProcurementRow.sent
  split
  · exact fun h => absurd h (by decide : "sent_to_erp" ≠ "requested")
  · rename_i hnot
    exact fun hstatus => hnot ⟨h, hstatus⟩

@[simp] theorem ProcurementRow.sent_sparePartId (ids : List String) (now : Int)
    (erpReference : Option String) (r : ProcurementRow) :
    (r.sent ids now erpReference).sparePartId = r.sparePartId := by
  unfold ProcurementRow.sent
  split <;> rfl

@[simp] theorem ProcurementRow.sent_reason (ids : List String) (now : Int)
    (erpReference : Option String) (r : ProcurementRow) :
    (r.sent ids now erpReference).reason = r.reason := by
  unfold ProcurementRow.sent
  split <;> rfl

/-- Move the given requests from `requested` to `sent_to_erp`; returns how many moved. -/
def markProcurementSent (db : CmmsDatabase) (now : Int) (ids : List String)
    (erpReference : Option String) : CmmsDatabase × ℕ :=
  if ids = [] then (db, 0)
  else
    ({ db with
        procurementRequests := db.procurementRequests.modify
          (ProcurementRow.sent ids now erpReference)
          (ProcurementRow.sent_id ids now erpReference) },
      db.procurementRequests.rows.countP fun r => r.id ∈ ids ∧ r.status = "requested")

theorem insertSyncLog_ok {db db' : CmmsDatabase} {now : Int}
    {id connectionId direction entity status : String} {recordCount : Int32}
    {detail : Option String}
    (h : insertSyncLog db now id connectionId direction entity recordCount status detail
      = .ok db') : ∃ erpSyncLog, db' = { db with erpSyncLog } := by
  unfold insertSyncLog at h
  split at h
  · cases h
  · split at h
    · cases h
    · cases h
      exact ⟨_, rfl⟩

/-- A request after the update is the one before it, moved if the ids name it. -/
theorem mem_markProcurementSent {db : CmmsDatabase} {now : Int} {ids : List String}
    {erpReference : Option String} {r : ProcurementRow} :
    r ∈ (markProcurementSent db now ids erpReference).1.procurementRequests ↔
      ∃ s ∈ db.procurementRequests, s.sent ids now erpReference = r := by
  unfold markProcurementSent
  split
  · rename_i hnil
    have hsame (s : ProcurementRow) : s.sent ids now erpReference = s := by
      rw [ProcurementRow.sent, if_neg]
      rw [hnil]
      exact fun h => absurd h.1 List.not_mem_nil
    simp [hsame]
  · rw [Table.mem_modify]

/-- The update leaves the ledger of spares alone. -/
theorem markProcurementSent_spares (db : CmmsDatabase) (now : Int) (ids : List String)
    (erpReference : Option String) :
    (markProcurementSent db now ids erpReference).1.spareParts = db.spareParts ∧
      (markProcurementSent db now ids erpReference).1.spareTxns = db.spareTxns := by
  unfold markProcurementSent
  split <;> exact ⟨rfl, rfl⟩

end ElectronixMes.Db
