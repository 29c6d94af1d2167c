import ElectronixMes.Db.RepoErp
import ElectronixMes.Edge.Erp

/-!
# Export to an ERP (crates/mes-edge/src/erp.rs)

"Sync now": the records of an entity are gathered, mapped to the ERP's vocabulary and posted
to the connection's endpoint. After a successful post of procurement requests these are
marked as sent. The audit log is not modelled.
-/

namespace ElectronixMes.Edge

open Db Relational Serde

structure ErpExportRequest where
  connectionId : String
  entity : String

structure ErpExportResult where
  entity : String
  recordCount : ℕ
  pushed : Bool
  payload : List Json
  syncLogId : String

/-- What was posted: the body in the ERP's vocabulary, and the procurement requests whose
records it holds. -/
structure Post where
  url : String
  token : Option String
  payload : List Json
  requests : List String

/-- Read a connection's mapping, with or without the `fields` around it. -/
def FieldMapping.fromJson (v : Json) : Except String FieldMapping :=
  match (v.get? "fields").getD v with
  | .obj fields => do
      let fields ← fields.mapM fun f =>
        match f.2 with
        | .str ext => Except.ok (f.1, ext)
        | _ => Except.error
            ("field mapping error: mapping for '" ++ f.1 ++ "' must be a string")
      return ⟨fields⟩
  | _ => .error "field mapping error: field_mapping must be an object"

/-- Put a member into an object; the map keeps its keys in order. -/
def insertMember (k : String) (v : Json) : List (String × Json) → List (String × Json)
  | [] => [(k, v)]
  | (k', v') :: rest =>
      if k = k' then (k, v) :: rest
      else if k < k' then (k, v) :: (k', v') :: rest
      else (k', v') :: insertMember k v rest

/-- Translate one canonical record into the external shape. -/
def FieldMapping.toExternal (mapping : FieldMapping) (canonical : Json) : Json :=
  .obj (mapping.fields.foldl (fun out f =>
    match canonical.get? f.1 with
    | some v => insertMember f.2 v out
    | none => out) [])

section Export

-- How numbers are written and how a token is decrypted belongs to libraries.
variable (c : Codec) (stockToJson : ℚ → Json) (decrypt : String → Option String)

/-- The record of a spare's stock level. -/
def stockRecord (s : SparePartRow × ℚ) : Json :=
  .obj [("code", .str s.1.code), ("name", .str s.1.name),
    ("reorder_point", c.decimalToJson s.1.reorderPoint), ("stock", stockToJson s.2)]

/-- The record of a procurement request. -/
def procurementRecord (r : ProcurementRow) : Json :=
  .obj [("qty_requested", c.decimalToJson r.qtyRequested), ("request_id", .str r.id),
    ("spare_part_id", .str r.sparePartId)]

/-- The requests an export takes. -/
def requestedOnly (db : CmmsDatabase) : List ProcurementRow :=
  (listProcurementRequests db).filter fun r => r.status = "requested"

/-- The canonical records of an entity, and the requests a successful push moves. -/
def exportRecords (db : CmmsDatabase) (entity : String) :
    Except ApiErr (List Json × List String) :=
  match entity with
  | "stock_level" => .ok ((listSpareParts db).map (stockRecord c stockToJson), [])
  | "procurement_request" =>
      .ok ((requestedOnly db).map (procurementRecord c),
        (requestedOnly db).map ProcurementRow.id)
  | other => .error ⟨400, "bad_entity", "export not supported for entity '" ++ other ++ "'"⟩

/-- The checks of a connection, and its mapping. -/
def exportMapping (conn : ErpConnectionRow) : Except ApiErr FieldMapping :=
  if !conn.enabled then .error ⟨409, "disabled", "connection is disabled"⟩
  else if ¬ (conn.direction = "export" ∨ conn.direction = "both") then
    .error ⟨400, "bad_direction", "connection does not allow export"⟩
  else
    match FieldMapping.fromJson conn.fieldMapping with
    | .error text => .error ⟨400, "bad_mapping", text⟩
    | .ok mapping => .ok mapping

/-- The post of gathered records: the token is decrypted first. -/
def preparePost (conn : ErpConnectionRow) (mapping : FieldMapping) (canonical : List Json)
    (ids : List String) : Except ApiErr Post :=
  let payload := canonical.map mapping.toExternal
  match conn.authTokenEnc with
  | none => .ok ⟨conn.endpointUrl, none, payload, ids⟩
  | some enc =>
      match decrypt enc with
      | none => .error ⟨500, "internal", "token decrypt failed"⟩
      | some token => .ok ⟨conn.endpointUrl, some token, payload, ids⟩

/-- The reference the ERP gives for a push. -/
def erpReference (resp : Json) : Option String := (resp.get? "reference").bind Json.asString

/-- `payload.len() as i32`. -/
def Post.recordCount (post : Post) : Int32 := Int32.ofNat post.payload.length

/-- The end of an export whose post was answered, but for the log. -/
def markPosted (db : CmmsDatabase) (now : Int) (post : Post) (resp : Json) : CmmsDatabase :=
  (markProcurementSent db now post.requests (erpReference resp)).1

def logFailed (db : CmmsDatabase) (now : Int) (logId : String) (req : ErpExportRequest)
    (post : Post) (detail : String) : CmmsDatabase :=
  match insertSyncLog db now logId req.connectionId "export" req.entity post.recordCount
      "error" (some detail) with
  | .error _ => db
  | .ok db => db

/-- Push an entity to an ERP that answers with `answer`; what was posted comes with the
result. -/
def exportNow (db : CmmsDatabase) (now : Int) (logId : String) (answer : Except String Json)
    (req : ErpExportRequest) :
    CmmsDatabase × Option Post × Except ApiErr ErpExportResult :=
  match getConnectionSecret db req.connectionId with
  | .error e => (db, none, .error (repoErr e))
  | .ok conn =>
      match exportMapping conn with
      | .error e => (db, none, .error e)
      | .ok mapping =>
          match exportRecords c stockToJson db req.entity with
          | .error e => (db, none, .error e)
          | .ok (canonical, ids) =>
              match preparePost decrypt conn mapping canonical ids with
              | .error e => (db, none, .error e)
              | .ok post =>
                  match answer with
                  | .error detail =>
                      (logFailed db now logId req post detail, none,
                        .error ⟨502, "export_failed", detail⟩)
                  | .ok resp =>
                      let db := markPosted db now post resp
                      match insertSyncLog db now logId req.connectionId "export" req.entity
                          post.recordCount "success" none with
                      | .error e => (db, some post, .error (repoErr e))
                      | .ok db =>
                          (db, some post, .ok ⟨req.entity, post.payload.length, true,
                            post.payload, logId⟩)

end Export

theorem mem_requestedOnly {db : CmmsDatabase} {r : ProcurementRow} :
    r ∈ requestedOnly db ↔ r ∈ db.procurementRequests ∧ r.status = "requested" := by
  rw [requestedOnly, List.mem_filter, listProcurementRequests, List.mem_insertionSort,
    Table.mem_rows, decide_eq_true_eq]

/-- Only an export of requests takes any; these are stored and still `requested`. -/
theorem mem_exportRecords {c : Codec} {stockToJson : ℚ → Json} {db : CmmsDatabase}
    {entity : String} {canonical : List Json} {ids : List String}
    (h : exportRecords c stockToJson db entity = .ok (canonical, ids)) :
    ∀ id ∈ ids, entity = "procurement_request" ∧ ∃ r ∈ requestedOnly db, r.id = id := by
  intro id hid
  unfold exportRecords at h
  split at h
  · cases h
    exact absurd hid List.not_mem_nil
  · cases h
    exact ⟨rfl, List.mem_map.mp hid⟩
  · cases h

theorem preparePost_requests {decrypt : String → Option String} {conn : ErpConnectionRow}
    {mapping : FieldMapping} {canonical : List Json} {ids : List String} {post : Post}
    (h : preparePost decrypt conn mapping canonical ids = .ok post) : post.requests = ids := by
  unfold preparePost at h
  dsimp only at h
  split at h
  · cases h
    rfl
  · split at h
    · cases h
    · cases h
      rfl

end ElectronixMes.Edge
