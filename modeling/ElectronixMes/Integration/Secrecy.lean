import ElectronixMes.Access.Hierarchy
import ElectronixMes.Integration.Vault

/-!
# Tokens go in and are not seen again

Two runs that differ only in which tokens are given, where one is given, are answered alike: no
answer of the ERP surface depends on what a token says, only on whether there is one. The
relation that a pair of runs keeps is that the servers differ in the stored tokens at most and
that every stored token decrypts.
-/

namespace ElectronixMes.Integration

open Relational Serde Edge Erp Transition
open Access (Alike)
open Db (ApiErr RepoError repoErr ConnRow ConnFields ConnectionData CmmsDatabase ErpConnection
  ErpConnectionRow)

/-- Inputs that differ in their tokens at most: neither gives one, or both do and both are
encrypted or none is. -/
structure SameButToken (cfg : ErpConfig) (call : ErpCall) (a b : ErpConnectionInput) : Prop where
  siteId : a.siteId = b.siteId
  name : a.name = b.name
  endpointUrl : a.endpointUrl = b.endpointUrl
  fieldMapping : a.fieldMapping = b.fieldMapping
  direction : a.direction = b.direction
  enabled : a.enabled = b.enabled
  token : given a = none ∧ given b = none ∨
    ∃ t u, given a = some t ∧ given b = some u ∧
      (Crypto.encrypt cfg.primitives cfg.erpKey call.nonce t).isOk =
        (Crypto.encrypt cfg.primitives cfg.erpKey call.nonce u).isOk

theorem SameButToken.refl {cfg : ErpConfig} {call : ErpCall} (a : ErpConnectionInput) :
    SameButToken cfg call a a := by
  refine ⟨rfl, rfl, rfl, rfl, rfl, rfl, ?_⟩
  cases htoken : given a with
  | none => exact Or.inl ⟨rfl, rfl⟩
  | some t => exact Or.inr ⟨t, t, rfl, rfl, rfl⟩

/-- Requests that differ in a token at most. -/
inductive SameRequest (cfg : ErpConfig) (call : ErpCall) : Request → Request → Prop where
  | refl (req : Request) : SameRequest cfg call req req
  | create {a b : ErpConnectionInput} (h : SameButToken cfg call a b) :
      SameRequest cfg call (.create a) (.create b)
  | update (id : String) {a b : ErpConnectionInput} (h : SameButToken cfg call a b) :
      SameRequest cfg call (.update id a) (.update id b)

def SameEvent (cfg : ErpConfig) (a b : Event) : Prop :=
  a.1 = b.1 ∧ SameRequest cfg a.1 a.2 b.2

/-- Connections with the same public view, next to the same tables. -/
structure SameData (d d' : ConnectionData) : Prop where
  master : d.master = d'.master
  cmms : d.cmms = d'.cmms
  connections : d.connections.project ConnRow.intoPublic ConnRow.key_intoPublic =
    d'.connections.project ConnRow.intoPublic ConnRow.key_intoPublic

/-- Servers that differ in the stored tokens at most. -/
structure SameServer (s s' : ErpServer) : Prop where
  data : SameData s.data s'.data
  db : s.db = s'.db

/-! ## Writes to a connection -/

/-- Columns that differ in the token at most. -/
structure SameFields (f g : ConnFields) : Prop where
  siteId : f.siteId = g.siteId
  name : f.name = g.name
  endpointUrl : f.endpointUrl = g.endpointUrl
  fieldMapping : f.fieldMapping = g.fieldMapping
  direction : f.direction = g.direction
  enabled : f.enabled = g.enabled
  token : f.authTokenEnc.isSome = g.authTokenEnc.isSome

section Fields

variable {cfg : ErpConfig} {call : ErpCall} {a b : ErpConnectionInput} {f g : ConnFields}

theorem encryptToken_of_none (h : given a = none) :
    encryptToken cfg call a.authToken = .ok none := by
  unfold encryptToken
  rw [show a.authToken.filter (· ≠ "") = none from h]

theorem encryptToken_alike (h : SameButToken cfg call a b) :
    Alike (fun e e' : Option String => e.isSome = e'.isSome) (encryptToken cfg call a.authToken)
      (encryptToken cfg call b.authToken) := by
  rcases h.token with ⟨ha, hb⟩ | ⟨t, u, ha, hb, hok⟩
  · rw [encryptToken_of_none ha, encryptToken_of_none hb]
    rfl
  · unfold encryptToken
    rw [show a.authToken.filter (· ≠ "") = some t from ha,
      show b.authToken.filter (· ≠ "") = some u from hb]
    dsimp only
    cases ht : Crypto.encrypt cfg.primitives cfg.erpKey call.nonce t with
    | error e =>
        cases hu : Crypto.encrypt cfg.primitives cfg.erpKey call.nonce u with
        | error e' => rfl
        | ok enc' =>
            rw [ht, hu] at hok
            cases hok
    | ok enc =>
        cases hu : Crypto.encrypt cfg.primitives cfg.erpKey call.nonce u with
        | error e' =>
            rw [ht, hu] at hok
            cases hok
        | ok enc' => rfl

theorem connFields_alike (h : SameButToken cfg call a b) :
    Alike SameFields (connFields cfg call a) (connFields cfg call b) := by
  have htoken := encryptToken_alike h
  unfold connFields
  rw [h.direction, h.siteId, h.name, h.endpointUrl, h.fieldMapping, h.enabled]
  cases normalizeDirection b.direction with
  | error e => rfl
  | ok direction =>
      simp only [bind, Except.bind]
      rcases htoken.cases with ⟨e, ha, hb⟩ | ⟨enc, enc', ha, hb, hsame⟩
      · rw [ha, hb]
        rfl
      · rw [ha, hb]
        exact ⟨rfl, rfl, rfl, rfl, rfl, rfl, hsame⟩

theorem SameFields.row (h : SameFields f g) (id : String) (now : Int) :
    (f.row id now).intoPublic = (g.row id now).intoPublic := by
  simp only [ConnFields.row, ConnRow.intoPublic, h.siteId, h.name, h.endpointUrl, h.fieldMapping,
    h.direction, h.enabled, h.token]

/-- A write of such columns over rows that look alike leaves rows that look alike. -/
theorem SameFields.set (h : SameFields f g) (now : Int) {r r' : ConnRow}
    (hr : r.intoPublic = r'.intoPublic) :
    (f.set now r).intoPublic = (g.set now r').intoPublic := by
  have htoken : (f.set now r).authTokenEnc.isSome = (g.set now r').authTokenEnc.isSome := by
    rw [ConnFields.set_token, ConnFields.set_token, Option.isSome_or, Option.isSome_or, h.token]
    exact congrArg (fun c : ErpConnection => g.authTokenEnc.isSome || c.hasToken) hr
  have hid : r.id = r'.id := congrArg (fun c : ErpConnection => c.id) hr
  have hcreated : r.createdAt = r'.createdAt := congrArg (fun c : ErpConnection => c.createdAt) hr
  unfold ConnRow.intoPublic
  rw [htoken]
  simp only [ConnFields.set, hid, hcreated, h.siteId, h.name, h.endpointUrl, h.fieldMapping,
    h.direction, h.enabled]

end Fields

section Statements

variable {d d' : ConnectionData} {f g : ConnFields}

/-- What a statement on a connection leaves and answers, next to the same on another server. -/
def SameResult (p q : ConnectionData × ErpConnection) : Prop := SameData p.1 q.1 ∧ p.2 = q.2

theorem SameData.siteRef (h : SameData d d') (siteId : Option String) :
    Db.siteRef d siteId = Db.siteRef d' siteId := by
  unfold Db.siteRef
  rw [h.master]

theorem SameData.lookup (h : SameData d d') (id : String) :
    (d.connections.lookup id).map ConnRow.intoPublic =
      (d'.connections.lookup id).map ConnRow.intoPublic := by
  have hlookup := congrArg (fun t : Table ErpConnection => t.lookup id) h.connections
  simp only [Table.lookup_project] at hlookup
  exact hlookup

theorem createConnection_alike (h : SameData d d') (hf : SameFields f g) (now : Int)
    (id : String) :
    Alike SameResult (Db.createConnection d now id f) (Db.createConnection d' now id g) := by
  unfold Db.createConnection Db.Master.insertRow
  rw [hf.siteId, h.siteRef]
  rcases Table.insert?_alike h.connections (hf.row id now) with
    ⟨hnone, hnone'⟩ | ⟨t, t', hins, hins', hsame⟩
  · rw [hnone, hnone']
    rfl
  · rw [hins, hins']
    cases hsite : Db.siteRef d' g.siteId with
    | error e => rfl
    | ok u => exact ⟨⟨h.master, h.cmms, hsame⟩, hf.row id now⟩

theorem updateConnection_alike (h : SameData d d') (hf : SameFields f g) (now : Int)
    (id : String) :
    Alike SameResult (Db.updateConnection d now id f) (Db.updateConnection d' now id g) := by
  have hlookup := h.lookup id
  unfold Db.updateConnection Db.Master.updateRow
  rw [hf.siteId, h.siteRef]
  cases hr : d.connections.lookup id with
  | none =>
      rw [hr] at hlookup
      rw [Option.map_eq_none_iff.mp hlookup.symm]
      rfl
  | some r =>
      rw [hr] at hlookup
      obtain ⟨r', hr', hpublic⟩ := Option.map_eq_some_iff.mp hlookup.symm
      rw [hr']
      cases hsite : Db.siteRef d' g.siteId with
      | error e => rfl
      | ok u =>
          have hset := hf.set now hpublic.symm
          refine ⟨⟨h.master, h.cmms, ?_⟩, hset⟩
          change (d.connections.put (f.set now r)).project _ _ =
            (d'.connections.put (g.set now r')).project _ _
          rw [Table.project_put, Table.project_put, h.connections, hset]

/-- Rows go by what is seen of them. -/
theorem SameData.drop (h : SameData d d') {gone : ConnRow → Bool} (seen : ErpConnection → Bool)
    (hseen : ∀ r, seen r.intoPublic = gone r) :
    SameData (Db.dropConnections d gone) (Db.dropConnections d' gone) := by
  have hrows : d.connections.rows.map ConnRow.intoPublic =
      d'.connections.rows.map ConnRow.intoPublic :=
    congrArg (fun t : Table ErpConnection => t.rows) h.connections
  have hany (line : Db.SyncLogRow) (rows : List ConnRow) :
      (rows.any fun r => gone r && line.connectionId = some r.id) =
        (rows.map ConnRow.intoPublic).any fun c => seen c && line.connectionId = some c.id := by
    rw [List.any_map]
    congr 1
    funext r
    simp only [Function.comp_apply, hseen]
    rfl
  refine ⟨h.master, ?_, ?_⟩
  · unfold Db.dropConnections
    simp only [hany, hrows, h.cmms]
  · change (d.connections.delete gone).project _ _ = (d'.connections.delete gone).project _ _
    rw [Table.project_delete hseen, Table.project_delete hseen, h.connections]

theorem deleteConnection_alike (h : SameData d d') (id : String) :
    Alike SameData (Db.deleteConnection d id) (Db.deleteConnection d' id) := by
  have hthere : (d.connections.lookup id).isSome = (d'.connections.lookup id).isSome := by
    rw [← Option.isSome_map (f := ConnRow.intoPublic), h.lookup, Option.isSome_map]
  unfold Db.deleteConnection
  rw [hthere]
  split
  · exact h.drop (fun c => c.id = id) fun r => rfl
  · rfl

theorem listConnections_alike (h : SameData d d') :
    Db.listConnections d = Db.listConnections d' := by
  have hsort (rows : List ConnRow) :
      (rows.insertionSort fun a b => a.createdAt ≤ b.createdAt).map ConnRow.intoPublic =
        (rows.map ConnRow.intoPublic).insertionSort fun a b => a.createdAt ≤ b.createdAt :=
    List.map_insertionSort _ _ _ _ fun a _ b _ => Iff.rfl
  unfold Db.listConnections
  rw [hsort, hsort]
  exact congrArg (fun t : Table ErpConnection =>
    t.rows.insertionSort fun a b => a.createdAt ≤ b.createdAt) h.connections

theorem getConnection_alike (h : SameData d d') (id : String) :
    Db.getConnection d id = Db.getConnection d' id := by
  have hget (d : ConnectionData) : Db.getConnection d id =
      ((d.connections.lookup id).map ConnRow.intoPublic).elim (.error .notFound) .ok := by
    unfold Db.getConnection Db.Master.getRow
    cases d.connections.lookup id <;> rfl
  rw [hget, hget, h.lookup]

end Statements

/-! ## Imports and exports -/

/-- What a sync run reads of a connection but for its token. -/
def hide (conn : ErpConnectionRow) : ErpConnectionRow := { conn with authTokenEnc := none }

/-- Tables that differ in the stored tokens at most. -/
structure SameTables (d d' : CmmsDatabase) : Prop where
  rest : { d with erpConnections := ∅ } = { d' with erpConnections := ∅ }
  connections : ∀ id, (d.erpConnections.lookup id).map hide = (d'.erpConnections.lookup id).map hide

section Tables

variable {d d' : CmmsDatabase}

theorem SameData.tables {d d' : ConnectionData} (h : SameData d d') :
    SameTables d.tables d'.tables where
  rest := by
    unfold ConnectionData.tables
    rw [h.cmms]
  connections id := by
    have hlookup (d : ConnectionData) : (d.tables.erpConnections.lookup id).map hide =
        ((d.connections.lookup id).map ConnRow.intoPublic).map fun c =>
          ⟨c.id, c.endpointUrl, none, c.fieldMapping, c.direction, c.enabled⟩ := by
      change ((d.connections.project ConnRow.secret ConnRow.key_secret).lookup id).map hide = _
      rw [Table.lookup_project, Option.map_map, Option.map_map]
      rfl
    rw [hlookup, hlookup, h.lookup]

theorem SameTables.secret (h : SameTables d d') (id : String) :
    Alike (fun conn conn' => hide conn = hide conn') (Db.getConnectionSecret d id)
      (Db.getConnectionSecret d' id) := by
  have hlookup := h.connections id
  unfold Db.getConnectionSecret
  cases hconn : d.erpConnections.lookup id with
  | none =>
      rw [hconn] at hlookup
      rw [Option.map_eq_none_iff.mp hlookup.symm]
      rfl
  | some conn =>
      rw [hconn] at hlookup
      obtain ⟨conn', hconn', hhide⟩ := Option.map_eq_some_iff.mp hlookup.symm
      rw [hconn']
      exact hhide.symm

theorem SameTables.insertSyncLog (h : SameTables d d') (now : Int)
    (id connectionId direction entity : String) (recordCount : Int32) (status : String)
    (detail : Option String) :
    Alike SameTables
      (Db.insertSyncLog d now id connectionId direction entity recordCount status detail)
      (Db.insertSyncLog d' now id connectionId direction entity recordCount status detail) := by
  have hlog : d.erpSyncLog = d'.erpSyncLog :=
    calc d.erpSyncLog
      _ = ({ d with erpConnections := ∅ } : CmmsDatabase).erpSyncLog := rfl
      _ = ({ d' with erpConnections := ∅ } : CmmsDatabase).erpSyncLog := by rw [h.rest]
      _ = d'.erpSyncLog := rfl
  have hpresent : (fun k => (d.erpConnections.lookup k).isSome) =
      fun k => (d'.erpConnections.lookup k).isSome := by
    funext k
    rw [← Option.isSome_map (f := hide), h.connections, Option.isSome_map]
  unfold Db.insertSyncLog
  rw [hlog, hpresent]
  split
  · rfl
  · split
    · rfl
    · rename_i erpSyncLog _ _ _
      exact ⟨congrArg (fun x : CmmsDatabase => { x with erpSyncLog }) h.rest, h.connections⟩

theorem SameTables.markPosted (h : SameTables d d') (now : Int) {post post' : Post}
    (hrequests : post.requests = post'.requests) (resp : Json) :
    SameTables (markPosted d now post resp) (markPosted d' now post' resp) := by
  unfold Edge.markPosted Db.markProcurementSent
  rw [hrequests]
  split
  · exact h
  · refine ⟨?_, h.connections⟩
    exact congrArg (fun x : CmmsDatabase => { x with
      procurementRequests := x.procurementRequests.modify
        (Db.ProcurementRow.sent post'.requests now (erpReference resp))
        (Db.ProcurementRow.sent_id post'.requests now (erpReference resp)) }) h.rest

theorem exportRecords_alike (h : SameTables d d') (c : Codec) (stockToJson : ℚ → Json)
    (entity : String) :
    exportRecords c stockToJson d entity = exportRecords c stockToJson d' entity :=
  calc exportRecords c stockToJson d entity
    _ = exportRecords c stockToJson { d with erpConnections := ∅ } entity := rfl
    _ = exportRecords c stockToJson { d' with erpConnections := ∅ } entity := by rw [h.rest]
    _ = exportRecords c stockToJson d' entity := rfl

/-- Posts that differ in the token at most. -/
structure SamePost (p p' : Post) : Prop where
  url : p.url = p'.url
  payload : p.payload = p'.payload
  requests : p.requests = p'.requests

theorem preparePost_alike {decrypt : String → Option String} {conn conn' : ErpConnectionRow}
    (hconn : hide conn = hide conn')
    (hopen : ∀ enc ∈ conn.authTokenEnc, (decrypt enc).isSome = true)
    (hopen' : ∀ enc ∈ conn'.authTokenEnc, (decrypt enc).isSome = true)
    (mapping : FieldMapping) (canonical : List Json) (ids : List String) :
    ∃ post post', preparePost decrypt conn mapping canonical ids = .ok post ∧
      preparePost decrypt conn' mapping canonical ids = .ok post' ∧ SamePost post post' := by
  have hmade {conn : ErpConnectionRow}
      (hopen : ∀ enc ∈ conn.authTokenEnc, (decrypt enc).isSome = true) :
      ∃ token, preparePost decrypt conn mapping canonical ids =
        .ok ⟨(hide conn).endpointUrl, token, canonical.map mapping.toExternal, ids⟩ := by
    unfold preparePost
    cases henc : conn.authTokenEnc with
    | none => exact ⟨none, rfl⟩
    | some enc =>
        obtain ⟨token, htoken⟩ := Option.isSome_iff_exists.mp (hopen enc henc)
        refine ⟨some token, ?_⟩
        simp only [htoken]
        rfl
  obtain ⟨token, hpost⟩ := hmade hopen
  obtain ⟨token', hpost'⟩ := hmade hopen'
  exact ⟨_, _, hpost, hpost', congrArg ErpConnectionRow.endpointUrl hconn, rfl, rfl⟩

/-- What an export leaves and answers, next to the same on another server. -/
def SameExport (r r' : CmmsDatabase × Option Post × Except ApiErr ErpExportResult) : Prop :=
  SameTables r.1 r'.1 ∧ r.2.2 = r'.2.2

theorem finishExport_alike (h : SameTables d d') (now : Int) (logId : String)
    (answer : Except String Json) (req : ErpExportRequest) {post post' : Post}
    (hpost : SamePost post post') :
    SameExport (finishExport d now logId answer req post)
      (finishExport d' now logId answer req post') := by
  have hcount : post.recordCount = post'.recordCount :=
    congrArg (fun payload : List Json => Int32.ofNat payload.length) hpost.payload
  cases answer with
  | error detail =>
      have hlog := h.insertSyncLog now logId req.connectionId "export" req.entity
        post'.recordCount "error" (some detail)
      unfold finishExport logFailed
      rw [hcount]
      refine ⟨?_, rfl⟩
      dsimp only
      rcases hlog.cases with ⟨e, hd, hd'⟩ | ⟨db, db', hd, hd', hsame⟩
      · rw [hd, hd']
        exact h
      · rw [hd, hd']
        exact hsame
  | ok resp =>
      have hmarked := h.markPosted now hpost.requests resp
      have hlog := hmarked.insertSyncLog now logId req.connectionId "export" req.entity
        post'.recordCount "success" none
      unfold finishExport
      rw [hcount, hpost.payload]
      dsimp only
      rcases hlog.cases with ⟨e, hd, hd'⟩ | ⟨db, db', hd, hd', hsame⟩
      · rw [hd, hd']
        exact ⟨hmarked, rfl⟩
      · rw [hd, hd']
        exact ⟨hsame, rfl⟩

/-- Every token of the connections decrypts. -/
def Opens (decrypt : String → Option String) (d : CmmsDatabase) : Prop :=
  ∀ id conn, d.erpConnections.lookup id = some conn →
    ∀ enc ∈ conn.authTokenEnc, (decrypt enc).isSome = true

theorem Sealed.opens {cfg : ErpConfig} {s : ErpServer} (h : Sealed cfg s) :
    Opens (decryptToken cfg) s.data.tables := by
  intro id conn hlookup enc henc
  change (s.data.connections.project ConnRow.secret ConnRow.key_secret).lookup id = some conn
    at hlookup
  rw [Table.lookup_project] at hlookup
  obtain ⟨r, hr, rfl⟩ := Option.map_eq_some_iff.mp hlookup
  exact h r (Table.lookup_eq_some.mp hr).1 enc henc

theorem getConnectionSecret_ok {id : String} {conn : ErpConnectionRow}
    (h : Db.getConnectionSecret d id = .ok conn) : d.erpConnections.lookup id = some conn := by
  unfold Db.getConnectionSecret at h
  split at h
  · cases h
  · rename_i hlookup
    cases h
    exact hlookup

theorem exportMapping_alike {conn conn' : ErpConnectionRow} (h : hide conn = hide conn') :
    exportMapping conn = exportMapping conn' :=
  calc exportMapping conn
    _ = exportMapping (hide conn) := rfl
    _ = exportMapping (hide conn') := by rw [h]
    _ = exportMapping conn' := rfl

theorem importMapping_alike {conn conn' : ErpConnectionRow} (h : hide conn = hide conn') :
    importMapping conn = importMapping conn' :=
  calc importMapping conn
    _ = importMapping (hide conn) := rfl
    _ = importMapping (hide conn') := by rw [h]
    _ = importMapping conn' := rfl

theorem exportPost_alike (h : SameTables d d') {decrypt : String → Option String}
    (hopen : Opens decrypt d) (hopen' : Opens decrypt d') (c : Codec) (stockToJson : ℚ → Json)
    (req : ErpExportRequest) :
    Alike SamePost (exportPost c stockToJson decrypt d req)
      (exportPost c stockToJson decrypt d' req) := by
  have hsecret := h.secret req.connectionId
  unfold exportPost
  rw [exportRecords_alike h]
  rcases hsecret.cases with ⟨e, hconn, hconn'⟩ | ⟨conn, conn', hconn, hconn', hhide⟩
  · rw [hconn, hconn']
    rfl
  · rw [hconn, hconn']
    dsimp only
    rw [exportMapping_alike hhide]
    cases exportMapping conn' with
    | error e => rfl
    | ok mapping =>
        dsimp only
        cases exportRecords c stockToJson d' req.entity with
        | error e => rfl
        | ok records =>
            obtain ⟨post, post', hpost, hpost', hsame⟩ := preparePost_alike hhide
              (hopen _ _ (getConnectionSecret_ok hconn))
              (hopen' _ _ (getConnectionSecret_ok hconn')) mapping records.1 records.2
            dsimp only
            rw [hpost, hpost']
            exact hsame

theorem exportNow_alike (h : SameTables d d') {decrypt : String → Option String}
    (hopen : Opens decrypt d) (hopen' : Opens decrypt d') (c : Codec) (stockToJson : ℚ → Json)
    (now : Int) (logId : String) (answer : Except String Json) (req : ErpExportRequest) :
    SameExport (exportNow c stockToJson decrypt d now logId answer req)
      (exportNow c stockToJson decrypt d' now logId answer req) := by
  rcases (exportPost_alike h hopen hopen' c stockToJson req).cases with
    ⟨e, hd, hd'⟩ | ⟨post, post', hd, hd', hsame⟩
  · rw [exportNow_of_error hd, exportNow_of_error hd']
    exact ⟨h, rfl⟩
  · rw [exportNow_of_ok hd, exportNow_of_ok hd']
    exact finishExport_alike h now logId answer req hsame

/-- What an import leaves and answers, next to the same on another server. -/
def SameImport (r r' : ErpStore × Except ApiErr ErpImportResult) : Prop :=
  r.1.db = r'.1.db ∧ SameTables r.1.cmms r'.1.cmms ∧ r.2 = r'.2

theorem logImport_alike (h : SameTables d d') (db : Db.Database) (now : Int) (logId : String)
    (req : ErpImportRequest) (result : Except String (List String)) :
    SameImport (logImport ⟨db, d⟩ now logId req result)
      (logImport ⟨db, d'⟩ now logId req result) := by
  cases result with
  | ok created =>
      have hlog := h.insertSyncLog now logId req.connectionId "import" req.entity
        (Int32.ofNat created.length) "success" none
      unfold logImport
      dsimp only
      rcases hlog.cases with ⟨e, hd, hd'⟩ | ⟨cmms, cmms', hd, hd', hsame⟩
      · rw [hd, hd']
        exact ⟨rfl, h, rfl⟩
      · rw [hd, hd']
        exact ⟨rfl, hsame, rfl⟩
  | error detail =>
      have hlog := h.insertSyncLog now logId req.connectionId "import" req.entity 0 "error"
        (some detail)
      unfold logImport
      dsimp only
      rcases hlog.cases with ⟨e, hd, hd'⟩ | ⟨cmms, cmms', hd, hd', hsame⟩
      · rw [hd, hd']
        exact ⟨rfl, h, rfl⟩
      · rw [hd, hd']
        exact ⟨rfl, hsame, rfl⟩

theorem importRecords_alike (h : SameTables d d') (c : Codec) (debug : RepoError → String)
    (db : Db.Database) (now : ℕ → Int) (ids : ℕ → ℕ → String) (logNow : Int) (logId : String)
    (req : ErpImportRequest) :
    SameImport (importRecords c debug ⟨db, d⟩ now ids logNow logId req)
      (importRecords c debug ⟨db, d'⟩ now ids logNow logId req) := by
  have hsecret := h.secret req.connectionId
  unfold importRecords
  dsimp only
  rcases hsecret.cases with ⟨e, hconn, hconn'⟩ | ⟨conn, conn', hconn, hconn', hhide⟩
  · rw [hconn, hconn']
    exact ⟨rfl, h, rfl⟩
  · rw [hconn, hconn']
    dsimp only
    rw [importMapping_alike hhide]
    cases importMapping conn' with
    | error e => exact ⟨rfl, h, rfl⟩
    | ok mapping =>
        dsimp only
        split
        · exact logImport_alike h _ logNow logId req _
        · exact ⟨rfl, h, rfl⟩

end Tables

/-! ## Handlers -/

section Handlers

variable {cfg : ErpConfig} {s s' : ErpServer} {call : ErpCall}

/-- What a handler leaves and answers, next to the same on another server. -/
def SameOutcome {α : Type} (p q : ErpServer × Except ApiErr α) : Prop :=
  SameServer p.1 q.1 ∧ p.2 = q.2

theorem SameServer.audited (h : SameServer s s') (actor : Core.AuthUser) (action entity : String)
    (entityId : Option String) (detail : Option Json) :
    SameServer (s.audited call actor action entity entityId detail)
      (s'.audited call actor action entity entityId detail) := by
  refine ⟨⟨?_, h.data.cmms, h.data.connections⟩, h.db⟩
  unfold ErpServer.audited
  rw [h.data.master]

theorem SameServer.commit (h : SameServer s s') {store store' : ErpStore}
    (hdb : store.db = store'.db) (htables : SameTables store.cmms store'.cmms) :
    SameServer (s.commit store) (s'.commit store') := by
  refine ⟨⟨h.data.master, ?_, h.data.connections⟩, hdb⟩
  unfold ErpServer.commit
  rw [h.data.cmms]
  exact congrArg (fun x : CmmsDatabase =>
    { x with erpConnections := s'.data.cmms.erpConnections }) htables.rest

theorem behindWriter_alike {α : Type} (h : SameServer s s')
    {handle handle' : Core.AuthUser → ErpServer × Except ApiErr α}
    (hhandle : ∀ actor, SameOutcome (handle actor) (handle' actor)) :
    SameOutcome (behindWriter cfg s call handle) (behindWriter cfg s' call handle') := by
  unfold behindWriter
  cases masterWriter cfg.auth call.now call.authorization with
  | error e => exact ⟨h, rfl⟩
  | ok actor => exact hhandle actor

theorem SameOutcome.replied {α : Type} {p q : ErpServer × Except ApiErr α} (h : SameOutcome p q)
    (reply : α → Reply) : SameOutcome (replied p reply) (replied q reply) :=
  ⟨h.1, congrArg (Except.map reply) h.2⟩

theorem createConnection_same (h : SameServer s s') {a b : ErpConnectionInput}
    (hab : SameButToken cfg call a b) :
    SameOutcome (createConnection cfg s call a) (createConnection cfg s' call b) := by
  refine behindWriter_alike h fun actor => ?_
  rcases (connFields_alike hab).cases with ⟨e, ha, hb⟩ | ⟨f, g, ha, hb, hfields⟩
  · rw [ha, hb]
    exact ⟨h, rfl⟩
  · rw [ha, hb]
    dsimp only
    rcases (createConnection_alike h.data hfields call.now call.id).cases with
      ⟨e, hf, hg⟩ | ⟨⟨data, conn⟩, ⟨data', conn'⟩, hf, hg, hdata, hconn⟩
    · rw [hf, hg]
      exact ⟨h, rfl⟩
    · rw [hf, hg]
      obtain rfl : conn = conn' := hconn
      have hwritten : SameServer { s with data := data } { s' with data := data' } := ⟨hdata, h.db⟩
      exact ⟨hwritten.audited actor _ _ _ _, rfl⟩

theorem updateConnection_same (h : SameServer s s') (id : String) {a b : ErpConnectionInput}
    (hab : SameButToken cfg call a b) :
    SameOutcome (updateConnection cfg s call id a) (updateConnection cfg s' call id b) := by
  refine behindWriter_alike h fun actor => ?_
  rcases (connFields_alike hab).cases with ⟨e, ha, hb⟩ | ⟨f, g, ha, hb, hfields⟩
  · rw [ha, hb]
    exact ⟨h, rfl⟩
  · rw [ha, hb]
    dsimp only
    rcases (updateConnection_alike h.data hfields call.now id).cases with
      ⟨e, hf, hg⟩ | ⟨⟨data, conn⟩, ⟨data', conn'⟩, hf, hg, hdata, hconn⟩
    · rw [hf, hg]
      exact ⟨h, rfl⟩
    · rw [hf, hg]
      obtain rfl : conn = conn' := hconn
      have hwritten : SameServer { s with data := data } { s' with data := data' } := ⟨hdata, h.db⟩
      exact ⟨hwritten.audited actor _ _ _ _, rfl⟩

theorem deleteConnection_same (h : SameServer s s') (id : String) :
    SameOutcome (deleteConnection cfg s call id) (deleteConnection cfg s' call id) := by
  refine behindWriter_alike h fun actor => ?_
  rcases (deleteConnection_alike h.data id).cases with
    ⟨e, hd, hd'⟩ | ⟨data, data', hd, hd', hdata⟩
  · rw [hd, hd']
    exact ⟨h, rfl⟩
  · rw [hd, hd']
    have hwritten : SameServer { s with data := data } { s' with data := data' } := ⟨hdata, h.db⟩
    exact ⟨hwritten.audited actor _ _ _ _, rfl⟩

theorem listConnections_same (h : SameServer s s') :
    SameOutcome (listConnections cfg s call) (listConnections cfg s' call) :=
  behindWriter_alike h fun _ => ⟨h, congrArg Except.ok (listConnections_alike h.data)⟩

theorem getConnection_same (h : SameServer s s') (id : String) :
    SameOutcome (getConnection cfg s call id) (getConnection cfg s' call id) :=
  behindWriter_alike h fun _ =>
    ⟨h, congrArg (Except.mapError repoErr) (getConnection_alike h.data id)⟩

theorem listSyncLog_same (h : SameServer s s') (connectionId : Option String) :
    SameOutcome (listSyncLog cfg s call connectionId) (listSyncLog cfg s' call connectionId) := by
  refine behindWriter_alike h fun _ => ⟨h, ?_⟩
  change Except.ok (Db.listSyncLog s.data.cmms connectionId) =
    Except.ok (Db.listSyncLog s'.data.cmms connectionId)
  rw [h.data.cmms]

theorem importFrom_same (h : SameServer s s') (req : ErpImportRequest) :
    SameOutcome (Edge.importFrom cfg s call req) (Edge.importFrom cfg s' call req) := by
  refine behindWriter_alike h fun actor => ?_
  have himport := importRecords_alike h.data.tables cfg.codec cfg.debug s.db call.recordNow
    call.recordIds call.logNow call.logId req
  rw [show s.store = ⟨s.db, s.data.tables⟩ from rfl,
    show s'.store = ⟨s.db, s'.data.tables⟩ from by rw [h.db]; rfl]
  obtain ⟨hdb, htables, hresult⟩ := himport
  have hcommit := h.commit hdb htables
  dsimp only
  rw [hresult]
  split
  · exact ⟨hcommit, rfl⟩
  · exact ⟨hcommit.audited actor _ _ _ _, rfl⟩

theorem exportTo_same (h : SameServer s s') (hs : Sealed cfg s) (hs' : Sealed cfg s')
    (req : ErpExportRequest) :
    SameOutcome (Edge.exportTo cfg s call req) (Edge.exportTo cfg s' call req) := by
  refine behindWriter_alike h fun actor => ?_
  obtain ⟨htables, hresult⟩ := exportNow_alike h.data.tables hs.opens hs'.opens cfg.codec
    cfg.stockToJson call.logNow call.logId call.answer req
  have hcommit := @SameServer.commit s s' h ⟨s.db, _⟩ ⟨s'.db, _⟩ h.db htables
  dsimp only
  rw [hresult]
  generalize (exportNow cfg.codec cfg.stockToJson (decryptToken cfg) s'.data.tables call.logNow
    call.logId call.answer req).2.2 = result
  cases result with
  | error e => exact ⟨hcommit, rfl⟩
  | ok r => exact ⟨hcommit.audited actor _ _ _ _, rfl⟩

theorem writeMaster_same (h : SameServer s s') (w : Master.MasterWrite) :
    SameOutcome (writeMaster cfg s call w) (writeMaster cfg s' call w) := by
  unfold writeMaster
  rw [h.data.master]
  generalize Master.handleWrite cfg.auth s'.data.master call.toCall w = handled
  obtain ⟨master, result⟩ := handled
  have hmaster : SameServer { s with data := { s.data with master } }
      { s' with data := { s'.data with master } } :=
    ⟨⟨rfl, h.data.cmms, h.data.connections⟩, h.db⟩
  cases result with
  | error e => cases w <;> exact ⟨hmaster, rfl⟩
  | ok out =>
      cases w with
      | deleteSite id =>
          have hdrop : SameData (Db.dropSite s.data id) (Db.dropSite s'.data id) :=
            h.data.drop (fun c => c.siteId = some id) fun r => rfl
          exact ⟨⟨⟨rfl, hdrop.cmms, hdrop.connections⟩, h.db⟩, rfl⟩
      | _ => exact ⟨hmaster, rfl⟩

end Handlers

/-- Servers that differ in stored tokens which decrypt answer alike and stay so. -/
theorem serve_unwinds {cfg : ErpConfig} (hp : cfg.primitives.Lawful) :
    Unwinds (serve cfg) (fun s s' => SameServer s s' ∧ Sealed cfg s ∧ Sealed cfg s')
      (SameEvent cfg) := by
  rintro s s' ⟨call, req⟩ ⟨call', req'⟩ ⟨h, hs, hs'⟩ ⟨hcall, hreq⟩
  obtain rfl : call = call' := hcall
  suffices hsame : SameOutcome (serve cfg s (call, req)) (serve cfg s' (call, req')) from
    ⟨hsame.2, hsame.1, hs.serve hp _, hs'.serve hp _⟩
  dsimp only at hreq
  cases hreq with
  | create hab => exact (createConnection_same h hab).replied _
  | update id hab => exact (updateConnection_same h id hab).replied _
  | refl =>
      cases req with
      | create input => exact (createConnection_same h (.refl input)).replied _
      | list => exact (listConnections_same h).replied _
      | get id => exact (getConnection_same h id).replied _
      | update id input => exact (updateConnection_same h id (.refl input)).replied _
      | delete id => exact (deleteConnection_same h id).replied _
      | importFrom req => exact (importFrom_same h req).replied _
      | exportTo req => exact (exportTo_same h hs hs' req).replied _
      | syncLog connectionId => exact (listSyncLog_same h connectionId).replied _
      | master w => exact (writeMaster_same h w).replied _
      | elsewhere db cmms =>
          exact ⟨⟨⟨h.data.master, rfl, h.data.connections⟩, rfl⟩, rfl⟩

/-- Two runs whose inputs differ in their tokens at most, on servers that differ in the stored
tokens at most, are answered alike, and the posts they lead to differ in their token at most. -/
theorem tokens_unseen {cfg : ErpConfig} (hp : cfg.primitives.Lawful) {s s' : ErpServer}
    (hs : Sealed cfg s) (hs' : Sealed cfg s') (h : SameServer s s') {run run' : List Event}
    (hrun : List.Forall₂ (SameEvent cfg) run run') :
    answers (serve cfg) s run = answers (serve cfg) s' run' ∧
      ∀ req, Alike SamePost (postNow cfg (reached (serve cfg) s run) req)
        (postNow cfg (reached (serve cfg) s' run') req) := by
  refine ⟨(serve_unwinds hp).answers_eq hrun ⟨h, hs, hs'⟩, ?_⟩
  intro req
  obtain ⟨hsame, hsealed, hsealed'⟩ := (serve_unwinds hp).reached hrun ⟨h, hs, hs'⟩
  exact exportPost_alike hsame.data.tables hsealed.opens hsealed'.opens cfg.codec cfg.stockToJson
    req

section Sample

/-- A connection is created with a token, shown, and pushed to. -/
def pushed (token : String) : List Event :=
  [(officeCall, .create ⟨none, "ERP", "https://erp/a", some token, .null, none, none⟩),
    (officeCall, .list), (officeCall, .exportTo ⟨"c1", "stock_level"⟩)]

/-- No answer tells one of two tokens from the other; the next post bears the one or the other. -/
theorem tokens_unseen_pushed :
    answers (serve office) {} (pushed "tok") = answers (serve office) {} (pushed "key") ∧
    ∃ post post',
      postNow office (reached (serve office) {} (pushed "tok")) ⟨"c1", "stock_level"⟩ = .ok post ∧
      postNow office (reached (serve office) {} (pushed "key")) ⟨"c1", "stock_level"⟩ = .ok post' ∧
      SamePost post post' ∧ post.token = some "tok" ∧ post'.token = some "key" := by
  have hempty : Sealed office {} := fun r hr => absurd hr (Table.notMem_empty r)
  have hinputs : SameButToken office officeCall
      ⟨none, "ERP", "https://erp/a", some "tok", .null, none, none⟩
      ⟨none, "ERP", "https://erp/a", some "key", .null, none, none⟩ :=
    ⟨rfl, rfl, rfl, rfl, rfl, rfl, Or.inr ⟨"tok", "key", rfl, rfl, rfl⟩⟩
  have hrun : List.Forall₂ (SameEvent office) (pushed "tok") (pushed "key") :=
    .cons ⟨rfl, .create hinputs⟩ (.cons ⟨rfl, .refl _⟩ (.cons ⟨rfl, .refl _⟩ .nil))
  obtain ⟨hanswers, hposts⟩ :=
    tokens_unseen Crypto.sample_lawful hempty hempty ⟨⟨rfl, rfl, rfl⟩, rfl⟩ hrun
  refine ⟨hanswers, _, _, rfl, rfl, ?_, rfl, rfl⟩
  exact hposts ⟨"c1", "stock_level"⟩

end Sample

end ElectronixMes.Integration
