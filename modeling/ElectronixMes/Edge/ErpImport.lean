import ElectronixMes.Edge.ErpExport

/-!
# Import from an ERP (crates/mes-edge/src/erp.rs)

The checks of the connection, the import of the records, and the line that is written to the
sync log afterwards. The audit log is not modelled.
-/

namespace ElectronixMes.Edge

open Db Relational Serde

structure ErpImportRequest where
  connectionId : String
  entity : String
  records : List Json

structure ErpImportResult where
  entity : String
  imported : ℕ
  ids : List String
  syncLogId : String

/-- The tables of the orders, and those of the connections and the sync log. -/
structure ErpStore where
  db : Database
  cmms : CmmsDatabase

/-- The checks of a connection, and its mapping. -/
def importMapping (conn : ErpConnectionRow) : Except ApiErr FieldMapping :=
  if !conn.enabled then .error ⟨409, "disabled", "connection is disabled"⟩
  else if ¬ (conn.direction = "import" ∨ conn.direction = "both") then
    .error ⟨400, "bad_direction", "connection does not allow import"⟩
  else
    match FieldMapping.fromJson conn.fieldMapping with
    | .error text => .error ⟨400, "bad_mapping", text⟩
    | .ok mapping => .ok mapping

section Import

variable (c : Codec) (debug : RepoError → String)

/-- The line of the log after an import: all orders, or none and what went wrong. A failure to
write the line of a failed import is ignored. -/
def logImport (store : ErpStore) (now : Int) (logId : String) (req : ErpImportRequest) :
    Except String (List String) → ErpStore × Except ApiErr ErpImportResult
  | .ok created =>
      match insertSyncLog store.cmms now logId req.connectionId "import" req.entity
          (Int32.ofNat created.length) "success" none with
      | .error e => (store, .error (repoErr e))
      | .ok cmms => ({ store with cmms }, .ok ⟨req.entity, created.length, created, logId⟩)
  | .error detail =>
      match insertSyncLog store.cmms now logId req.connectionId "import" req.entity 0 "error"
          (some detail) with
      | .error _ => (store, .error ⟨400, "import_failed", detail⟩)
      | .ok cmms => ({ store with cmms }, .error ⟨400, "import_failed", detail⟩)

/-- Import external records through a connection's mapping. Each record draws its own time and
ids, and so does the log. -/
def importRecords (store : ErpStore) (now : ℕ → Int) (ids : ℕ → ℕ → String) (logNow : Int)
    (logId : String) (req : ErpImportRequest) : ErpStore × Except ApiErr ErpImportResult :=
  match getConnectionSecret store.cmms req.connectionId with
  | .error e => (store, .error (repoErr e))
  | .ok conn =>
      match importMapping conn with
      | .error e => (store, .error e)
      | .ok mapping =>
          if req.entity = "work_order" then
            let (db, result) := importWorkOrders c debug store.db now ids mapping req.records
            logImport { store with db } logNow logId req result
          else
            (store, .error ⟨400, "bad_entity",
              "import not supported for entity '" ++ req.entity ++ "'"⟩)

end Import

end ElectronixMes.Edge
