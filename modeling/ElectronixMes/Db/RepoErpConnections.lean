import ElectronixMes.Db.RepoErp
import ElectronixMes.Db.RepoMaster

/-!
# ERP connections (crates/mes-db/src/repo_erp.rs)

The whole row of a connection, its statements, and the list of the sync log. A connection goes
with its site and takes its lines of the sync log with it. What a sync run reads of a connection
is a projection of its row.
-/

namespace ElectronixMes.Db

open Relational Keyed Serde Master

/-- A row of `erp_connections`. -/
structure ConnRow where
  id : String
  siteId : Option String
  name : String
  endpointUrl : String
  authTokenEnc : Option String
  fieldMapping : Json
  direction : String
  enabled : Bool
  createdAt : Int
  updatedAt : Int

instance : Keyed ConnRow String := ⟨ConnRow.id⟩

@[simp] theorem key_conn (r : ConnRow) : key r = r.id := rfl

/-- A connection as a client sees it. -/
structure ErpConnection where
  id : String
  siteId : Option String
  name : String
  endpointUrl : String
  hasToken : Bool
  fieldMapping : Json
  direction : String
  enabled : Bool
  createdAt : Int
  updatedAt : Int

instance : Keyed ErpConnection String := ⟨ErpConnection.id⟩

/-- The public view drops the token. -/
def ConnRow.intoPublic (r : ConnRow) : ErpConnection :=
  ⟨r.id, r.siteId, r.name, r.endpointUrl, r.authTokenEnc.isSome, r.fieldMapping, r.direction,
    r.enabled, r.createdAt, r.updatedAt⟩

theorem ConnRow.key_intoPublic (r : ConnRow) : key r.intoPublic = key r := rfl

/-- What a sync run reads. -/
def ConnRow.secret (r : ConnRow) : ErpConnectionRow :=
  ⟨r.id, r.endpointUrl, r.authTokenEnc, r.fieldMapping, r.direction, r.enabled⟩

theorem ConnRow.key_secret (r : ConnRow) : key r.secret = key r := rfl

/-- The columns that a write gives. -/
structure ConnFields where
  siteId : Option String
  name : String
  endpointUrl : String
  authTokenEnc : Option String
  fieldMapping : Json
  direction : String
  enabled : Bool

def ConnFields.row (f : ConnFields) (id : String) (now : Int) : ConnRow :=
  ⟨id, f.siteId, f.name, f.endpointUrl, f.authTokenEnc, f.fieldMapping, f.direction, f.enabled,
    now, now⟩

/-- The columns after an `UPDATE`: a missing token leaves the stored one. -/
def ConnFields.set (f : ConnFields) (now : Int) (r : ConnRow) : ConnRow :=
  { r with
    siteId := f.siteId
    name := f.name
    endpointUrl := f.endpointUrl
    authTokenEnc := f.authTokenEnc <|> r.authTokenEnc
    fieldMapping := f.fieldMapping
    direction := f.direction
    enabled := f.enabled
    updatedAt := now }

theorem ConnFields.key_row (f : ConnFields) (id : String) (now : Int) :
    key (f.row id now) = id := rfl

theorem ConnFields.key_set (f : ConnFields) (now : Int) (r : ConnRow) :
    key (f.set now r) = r.id := rfl

theorem ConnFields.set_token (f : ConnFields) (now : Int) (r : ConnRow) :
    (f.set now r).authTokenEnc = f.authTokenEnc.or r.authTokenEnc := by
  rw [ConnFields.set, Option.orElse_eq_orElse, Option.orElse_eq_or]

/-- The connections next to the master data and the tables of the CMMS. -/
structure ConnectionData where
  master : MasterData := {}
  connections : Table ConnRow := ∅
  cmms : CmmsDatabase := {}

/-- The tables of the CMMS with the connections as a sync run reads them. -/
def ConnectionData.tables (d : ConnectionData) : CmmsDatabase :=
  { d.cmms with erpConnections := d.connections.project ConnRow.secret ConnRow.key_secret }

section Statements

variable (d : ConnectionData) (now : Int)

/-- The site of a connection, if it has one, must be there. -/
def siteRef (siteId : Option String) : Except RepoError Unit :=
  (optionalRef (fun k => (d.master.sites.lookup k).isSome) "erp_connections"
    "erp_connections_site_id_fkey" siteId).mapError mapSqlx

def createConnection (id : String) (f : ConnFields) :
    Except RepoError (ConnectionData × ErpConnection) := do
  let connections ← insertRow "erp_connections_pkey" [] d.connections (f.row id now)
  siteRef d f.siteId
  .ok ({ d with connections }, (f.row id now).intoPublic)

def getConnection (id : String) : Except RepoError ErpConnection :=
  (getRow d.connections id).map ConnRow.intoPublic

def listConnections : List ErpConnection :=
  (d.connections.rows.insertionSort fun a b => a.createdAt ≤ b.createdAt).map ConnRow.intoPublic

def updateConnection (id : String) (f : ConnFields) :
    Except RepoError (ConnectionData × ErpConnection) := do
  let (connections, row) ← updateRow [] d.connections id (f.set now)
  siteRef d f.siteId
  .ok ({ d with connections }, row.intoPublic)

/-- Connections go, and with each its lines of the sync log. -/
def dropConnections (gone : ConnRow → Bool) : ConnectionData :=
  { d with
    connections := d.connections.delete gone
    cmms :=
      { d.cmms with
        erpSyncLog := d.cmms.erpSyncLog.delete fun line =>
          d.connections.rows.any fun r => gone r && line.connectionId = some r.id } }

def deleteConnection (id : String) : Except RepoError ConnectionData :=
  if (d.connections.lookup id).isSome then .ok (dropConnections d fun r => r.id = id)
  else .error .notFound

/-- What the deletion of a site takes along. -/
def dropSite (siteId : String) : ConnectionData :=
  dropConnections d fun r => r.siteId = some siteId

/-- The sync log, of one connection if one is named, newest first. -/
def listSyncLog (db : CmmsDatabase) (connectionId : Option String) : List SyncLogRow :=
  (db.erpSyncLog.rows.filter fun line =>
    connectionId.isNone || line.connectionId = connectionId).insertionSort fun a b => b.ts ≤ a.ts

end Statements

section Specs

variable {d d' : ConnectionData} {now : Int} {id : String} {f : ConnFields} {out : ErpConnection}

theorem createConnection_ok (h : createConnection d now id f = .ok (d', out)) :
    ∃ connections, d.connections.insert? (f.row id now) = some connections ∧
      d' = { d with connections } ∧ out = (f.row id now).intoPublic := by
  obtain ⟨connections, hins, h⟩ := bind_eq_ok.mp h
  obtain ⟨-, -, h⟩ := bind_eq_ok.mp h
  cases h
  exact ⟨connections, (insertRow_ok hins).1, rfl, rfl⟩

theorem updateConnection_ok (h : updateConnection d now id f = .ok (d', out)) :
    ∃ r, d.connections.lookup id = some r ∧
      d' = { d with connections := d.connections.put (f.set now r) } ∧
      out = (f.set now r).intoPublic := by
  obtain ⟨⟨connections, row⟩, hupd, h⟩ := bind_eq_ok.mp h
  obtain ⟨-, -, h⟩ := bind_eq_ok.mp h
  cases h
  obtain ⟨r, hr, hkey, rfl, rfl, -⟩ := updateRow_ok hupd
  exact ⟨r, Table.lookup_eq_some.mpr ⟨hr, hkey⟩, rfl, rfl⟩

theorem deleteConnection_ok (h : deleteConnection d id = .ok d') :
    d' = dropConnections d fun r => r.id = id := by
  unfold deleteConnection at h
  split at h
  · cases h
    rfl
  · cases h

/-- A connection is read for a sync run by its row. -/
theorem getConnectionSecret_tables (d : ConnectionData) (id : String) :
    getConnectionSecret d.tables id =
      (getRow d.connections id).map ConnRow.secret := by
  have hlookup : d.tables.erpConnections.lookup id =
      (d.connections.lookup id).map ConnRow.secret :=
    @Table.lookup_project _ _ _ _ _ _ _ _ ConnRow.key_secret id
  unfold getConnectionSecret getRow
  rw [hlookup]
  cases d.connections.lookup id <;> rfl

end Specs

end ElectronixMes.Db
