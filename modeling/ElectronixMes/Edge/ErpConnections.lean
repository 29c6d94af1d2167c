import ElectronixMes.Db.RepoErpConnections
import ElectronixMes.Edge.ErpImport
import ElectronixMes.Edge.Master
import ElectronixMes.Erp.Crypto

/-!
# The ERP surface (crates/mes-edge/src/erp.rs)

Every handler stands behind the extractor of a master writer. A token comes in as plain text, is
encrypted before it is stored and decrypted for a push alone. Import and export are those of the
sync models, here behind their extractor and with their audit entries.
-/

namespace ElectronixMes.Edge

open ElectronixMes.Core Db Erp Relational Serde

/-- Create or replace a connection. -/
structure ErpConnectionInput where
  siteId : Option String
  name : String
  endpointUrl : String
  authToken : Option String
  fieldMapping : Json
  direction : Option String
  enabled : Option Bool

def normalizeDirection (d : Option String) : Except ApiErr String :=
  if d.getD "both" = "import" ∨ d.getD "both" = "export" ∨ d.getD "both" = "both" then
    .ok (d.getD "both")
  else .error ⟨400, "bad_direction", "direction must be import|export|both"⟩

def fieldMappingOrDefault : Json → Json
  | .null => .obj []
  | v => v

/-- What the edge is configured with, and what its libraries do. -/
structure ErpConfig where
  auth : AuthConfig
  primitives : Crypto.Primitives
  erpKey : List UInt8
  codec : Codec
  stockToJson : ℚ → Json
  debug : RepoError → String

/-- What a request finds and draws beyond a call: the nonce, the ids and times of an import, the id
and time of its line in the sync log, and the answer of the ERP to a push. -/
structure ErpCall extends Call where
  nonce : Option Crypto.Nonce := none
  recordNow : ℕ → Int := fun _ => 0
  recordIds : ℕ → ℕ → String := fun _ _ => ""
  logNow : Int := 0
  logId : String := ""
  answer : Except String Json := .ok .null

/-- The tables behind the ERP surface. -/
structure ErpServer where
  data : ConnectionData := {}
  db : Database := {}

/-- What an import works on. -/
def ErpServer.store (s : ErpServer) : ErpStore := ⟨s.db, s.data.tables⟩

/-- What an import or an export leaves; neither writes to the connections. -/
def ErpServer.commit (s : ErpServer) (store : ErpStore) : ErpServer where
  data := { s.data with cmms := { store.cmms with erpConnections := s.data.cmms.erpConnections } }
  db := store.db

section Handlers

variable (cfg : ErpConfig) (s : ErpServer) (call : ErpCall)

/-- Encrypt a token that is given and not empty. -/
def encryptToken (plain : Option String) : Except ApiErr (Option String) :=
  match plain.filter (· ≠ "") with
  | none => .ok none
  | some t =>
      match Crypto.encrypt cfg.primitives cfg.erpKey call.nonce t with
      | .error _ => .error ⟨500, "internal", "token encryption failed"⟩
      | .ok enc => .ok (some enc)

/-- What is decrypted for a push. -/
def decryptToken (enc : String) : Option String :=
  (Crypto.decrypt cfg.primitives cfg.erpKey enc).toOption

/-- The columns of a connection that an input gives. -/
def connFields (input : ErpConnectionInput) : Except ApiErr ConnFields := do
  let direction ← normalizeDirection input.direction
  let authTokenEnc ← encryptToken cfg call input.authToken
  return ⟨input.siteId, input.name, input.endpointUrl, authTokenEnc,
    fieldMappingOrDefault input.fieldMapping, direction, input.enabled.getD true⟩

/-- The server after the audit entry of an action. -/
def ErpServer.audited (s : ErpServer) (call : ErpCall) (actor : AuthUser) (action entity : String)
    (entityId : Option String) (detail : Option Json) : ErpServer :=
  { s with
    data := { s.data with
      master := audit s.data.master call.toCall (some actor.userId) action entity entityId
        detail } }

/-- A handler behind the extractor of a master writer. -/
def behindWriter {α : Type} (handle : AuthUser → ErpServer × Except ApiErr α) :
    ErpServer × Except ApiErr α :=
  match masterWriter cfg.auth call.now call.authorization with
  | .error e => (s, .error e)
  | .ok actor => handle actor

def createConnection (input : ErpConnectionInput) : ErpServer × Except ApiErr ErpConnection :=
  behindWriter cfg s call fun actor =>
    match connFields cfg call input with
    | .error e => (s, .error e)
    | .ok f =>
        match Db.createConnection s.data call.now call.id f with
        | .error e => (s, .error (repoErr e))
        | .ok (data, conn) =>
            (({ s with data } : ErpServer).audited call actor "create" "erp_connection"
              (some conn.id) none, .ok conn)

def listConnections : ErpServer × Except ApiErr (List ErpConnection) :=
  behindWriter cfg s call fun _ => (s, .ok (Db.listConnections s.data))

def getConnection (id : String) : ErpServer × Except ApiErr ErpConnection :=
  behindWriter cfg s call fun _ => (s, (Db.getConnection s.data id).mapError repoErr)

def updateConnection (id : String) (input : ErpConnectionInput) :
    ErpServer × Except ApiErr ErpConnection :=
  behindWriter cfg s call fun actor =>
    match connFields cfg call input with
    | .error e => (s, .error e)
    | .ok f =>
        match Db.updateConnection s.data call.now id f with
        | .error e => (s, .error (repoErr e))
        | .ok (data, conn) =>
            (({ s with data } : ErpServer).audited call actor "update" "erp_connection" (some id)
              none, .ok conn)

def deleteConnection (id : String) : ErpServer × Except ApiErr Unit :=
  behindWriter cfg s call fun actor =>
    match Db.deleteConnection s.data id with
    | .error e => (s, .error (repoErr e))
    | .ok data =>
        (({ s with data } : ErpServer).audited call actor "delete" "erp_connection" (some id) none,
          .ok ())

/-- The detail of the audit entry of a sync run. -/
def runDetail (entity : String) (count : ℕ) : Json :=
  .obj [("count", .int count), ("entity", .str entity)]

def importFrom (req : ErpImportRequest) : ErpServer × Except ApiErr ErpImportResult :=
  behindWriter cfg s call fun actor =>
    let (store, result) := importRecords cfg.codec cfg.debug s.store call.recordNow call.recordIds
      call.logNow call.logId req
    match result with
    | .error e => (s.commit store, .error e)
    | .ok r =>
        ((s.commit store).audited call actor "import" "erp" (some req.connectionId)
          (some (runDetail req.entity r.imported)), .ok r)

def exportTo (req : ErpExportRequest) : ErpServer × Except ApiErr ErpExportResult :=
  behindWriter cfg s call fun actor =>
    let (cmms, _, result) := exportNow cfg.codec cfg.stockToJson (decryptToken cfg) s.data.tables
      call.logNow call.logId call.answer req
    match result with
    | .error e => (s.commit ⟨s.db, cmms⟩, .error e)
    | .ok r =>
        ((s.commit ⟨s.db, cmms⟩).audited call actor "export" "erp" (some req.connectionId)
          (some (runDetail req.entity r.recordCount)), .ok r)

def listSyncLog (connectionId : Option String) : ErpServer × Except ApiErr (List SyncLogRow) :=
  behindWriter cfg s call fun _ => (s, .ok (Db.listSyncLog s.data.tables connectionId))

/-- A write to the master data; a site takes its connections with it. -/
def writeMaster (w : Master.MasterWrite) : ErpServer × Except ApiErr Master.Written :=
  let (master, result) := Master.handleWrite cfg.auth s.data.master call.toCall w
  match w, result with
  | .deleteSite id, .ok out => ({ s with data := { dropSite s.data id with master } }, .ok out)
  | _, result => ({ s with data := { s.data with master } }, result)

end Handlers

/-- The post that an export makes of the tables it finds, whatever the ERP answers. -/
def exportPost (c : Codec) (stockToJson : ℚ → Json) (decrypt : String → Option String)
    (db : CmmsDatabase) (req : ErpExportRequest) : Except ApiErr Post :=
  match getConnectionSecret db req.connectionId with
  | .error e => .error (repoErr e)
  | .ok conn =>
      match exportMapping conn with
      | .error e => .error e
      | .ok mapping =>
          match exportRecords c stockToJson db req.entity with
          | .error e => .error e
          | .ok (canonical, ids) => preparePost decrypt conn mapping canonical ids

section Export

variable {c : Codec} {stockToJson : ℚ → Json} {decrypt : String → Option String}
  {db : CmmsDatabase} {now : Int} {logId : String} {answer : Except String Json}
  {req : ErpExportRequest}

/-- An export that comes to no post leaves the tables alone. -/
theorem exportNow_of_error {e : ApiErr} (h : exportPost c stockToJson decrypt db req = .error e) :
    exportNow c stockToJson decrypt db now logId answer req = (db, none, .error e) := by
  unfold exportPost at h
  unfold exportNow
  cases hconn : getConnectionSecret db req.connectionId with
  | error e' =>
      rw [hconn] at h
      cases h
      rfl
  | ok conn =>
      simp only [hconn] at h
      cases hmapping : exportMapping conn with
      | error e' =>
          simp only [hmapping] at h
          cases h
          simp only [hmapping]
      | ok mapping =>
          simp only [hmapping] at h
          cases hrecords : exportRecords c stockToJson db req.entity with
          | error e' =>
              simp only [hrecords] at h
              cases h
              simp only [hmapping]
          | ok records =>
              simp only [hrecords] at h
              simp only [hmapping, h]

/-- The end of an export that makes a post. -/
def finishExport (db : CmmsDatabase) (now : Int) (logId : String) (answer : Except String Json)
    (req : ErpExportRequest) (post : Post) :
    CmmsDatabase × Option Post × Except ApiErr ErpExportResult :=
  match answer with
  | .error detail =>
      (logFailed db now logId req post detail, none, .error ⟨502, "export_failed", detail⟩)
  | .ok resp =>
      match insertSyncLog (markPosted db now post resp) now logId req.connectionId "export"
          req.entity post.recordCount "success" none with
      | .error e => (markPosted db now post resp, some post, .error (repoErr e))
      | .ok db =>
          (db, some post, .ok ⟨req.entity, post.payload.length, true, post.payload, logId⟩)

/-- An export that makes a post ends with the answer to it. -/
theorem exportNow_of_ok {post : Post} (h : exportPost c stockToJson decrypt db req = .ok post) :
    exportNow c stockToJson decrypt db now logId answer req =
      finishExport db now logId answer req post := by
  unfold exportPost at h
  unfold exportNow
  cases hconn : getConnectionSecret db req.connectionId with
  | error e =>
      rw [hconn] at h
      cases h
  | ok conn =>
      simp only [hconn] at h
      cases hmapping : exportMapping conn with
      | error e =>
          simp only [hmapping] at h
          cases h
      | ok mapping =>
          simp only [hmapping] at h
          cases hrecords : exportRecords c stockToJson db req.entity with
          | error e =>
              simp only [hrecords] at h
              cases h
          | ok records =>
              simp only [hrecords] at h
              simp only [hmapping, h]
              rfl

end Export

end ElectronixMes.Edge
