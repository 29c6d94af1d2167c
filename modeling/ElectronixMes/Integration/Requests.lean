import ElectronixMes.Edge.ErpConnections
import ElectronixMes.Transition.Observation

/-!
# Runs of the ERP surface

Anyone asks anything of the ERP surface with whatever header they send, the master data are
written, and other parts of the edge change the tables that a sync run reads. What a request does
to the connections is said once for each kind of request.
-/

namespace ElectronixMes.Integration

open Relational Serde Edge Erp
open Db (ApiErr RepoError repoErr ConnRow ConnFields ConnectionData CmmsDatabase ErpConnection
  SyncLogRow)

inductive Request where
  | create (input : ErpConnectionInput)
  | list
  | get (id : String)
  | update (id : String) (input : ErpConnectionInput)
  | delete (id : String)
  | importFrom (req : ErpImportRequest)
  | exportTo (req : ErpExportRequest)
  | syncLog (connectionId : Option String)
  | master (w : Master.MasterWrite)
  /-- Other parts of the edge have changed the orders and the tables of the CMMS. -/
  | elsewhere (db : Db.Database) (cmms : CmmsDatabase)

/-- A successful answer. -/
inductive Reply where
  | connection (conn : ErpConnection)
  | connections (conns : List ErpConnection)
  | deleted
  | imported (r : ErpImportResult)
  | exported (r : ErpExportResult)
  | log (lines : List SyncLogRow)
  | written (w : Master.Written)
  | nothing

abbrev Event := ErpCall × Request

/-- The state of a handled request with its answer as a reply. -/
def replied {α : Type} (result : ErpServer × Except ApiErr α) (reply : α → Reply) :
    ErpServer × Except ApiErr Reply :=
  (result.1, result.2.map reply)

def serve (cfg : ErpConfig) (s : ErpServer) (a : Event) : ErpServer × Except ApiErr Reply :=
  match a.2 with
  | .create input => replied (createConnection cfg s a.1 input) .connection
  | .list => replied (listConnections cfg s a.1) .connections
  | .get id => replied (getConnection cfg s a.1 id) .connection
  | .update id input => replied (updateConnection cfg s a.1 id input) .connection
  | .delete id => replied (deleteConnection cfg s a.1 id) fun _ => .deleted
  | .importFrom req => replied (Edge.importFrom cfg s a.1 req) .imported
  | .exportTo req => replied (Edge.exportTo cfg s a.1 req) .exported
  | .syncLog connectionId => replied (listSyncLog cfg s a.1 connectionId) .log
  | .master w => replied (writeMaster cfg s a.1 w) .written
  | .elsewhere db cmms => (⟨{ s.data with cmms }, db⟩, .ok .nothing)

/-- The post that an export would make now. -/
def postNow (cfg : ErpConfig) (s : ErpServer) (req : ErpExportRequest) : Except ApiErr Post :=
  exportPost cfg.codec cfg.stockToJson (decryptToken cfg) s.data.tables req

section Cases

variable (cfg : ErpConfig) (s : ErpServer) (call : ErpCall)

theorem behindWriter_cases {α : Type} (handle : Core.AuthUser → ErpServer × Except ApiErr α) :
    (∃ e, masterWriter cfg.auth call.now call.authorization = .error e ∧
      behindWriter cfg s call handle = (s, .error e)) ∨
    ∃ actor, masterWriter cfg.auth call.now call.authorization = .ok actor ∧
      behindWriter cfg s call handle = handle actor := by
  unfold behindWriter
  cases masterWriter cfg.auth call.now call.authorization with
  | error e => exact Or.inl ⟨e, rfl, rfl⟩
  | ok actor => exact Or.inr ⟨actor, rfl, rfl⟩

/-- A creation is refused and changes nothing, or the columns of its input become a row. -/
theorem createConnection_cases (input : ErpConnectionInput) :
    (∃ e, createConnection cfg s call input = (s, .error e)) ∨
    ∃ f connections s', connFields cfg call input = .ok f ∧
      s.data.connections.insert? (f.row call.id call.now) = some connections ∧
      s'.data.connections = connections ∧
      createConnection cfg s call input = (s', .ok (f.row call.id call.now).intoPublic) := by
  unfold createConnection
  rcases behindWriter_cases cfg s call _ with
    ⟨e, -, heq⟩ | ⟨actor, -, heq⟩
  · exact Or.inl ⟨e, heq⟩
  · rw [heq]
    cases hfields : connFields cfg call input with
    | error e => exact Or.inl ⟨e, rfl⟩
    | ok f =>
        dsimp only
        cases hcreate : Db.createConnection s.data call.now call.id f with
        | error e => exact Or.inl ⟨repoErr e, rfl⟩
        | ok result =>
            obtain ⟨connections, hins, hdata, hconn⟩ := Db.createConnection_ok hcreate
            refine Or.inr ⟨f, connections, _, rfl, hins, ?_,
              Prod.ext rfl (congrArg Except.ok hconn)⟩
            change result.1.connections = connections
            rw [hdata]

/-- An update is refused and changes nothing, or it sets the columns of its input. -/
theorem updateConnection_cases (id : String) (input : ErpConnectionInput) :
    (∃ e, updateConnection cfg s call id input = (s, .error e)) ∨
    ∃ f r s', connFields cfg call input = .ok f ∧ s.data.connections.lookup id = some r ∧
      s'.data.connections = s.data.connections.put (f.set call.now r) ∧
      updateConnection cfg s call id input = (s', .ok (f.set call.now r).intoPublic) := by
  unfold updateConnection
  rcases behindWriter_cases cfg s call _ with
    ⟨e, -, heq⟩ | ⟨actor, -, heq⟩
  · exact Or.inl ⟨e, heq⟩
  · rw [heq]
    cases hfields : connFields cfg call input with
    | error e => exact Or.inl ⟨e, rfl⟩
    | ok f =>
        dsimp only
        cases hupdate : Db.updateConnection s.data call.now id f with
        | error e => exact Or.inl ⟨repoErr e, rfl⟩
        | ok result =>
            obtain ⟨r, hr, hdata, hconn⟩ := Db.updateConnection_ok hupdate
            refine Or.inr ⟨f, r, _, rfl, hr, ?_, Prod.ext rfl (congrArg Except.ok hconn)⟩
            change result.1.connections = _
            rw [hdata]

theorem deleteConnection_cases (id : String) :
    (∃ e, deleteConnection cfg s call id = (s, .error e)) ∨
    ∃ s', s'.data.connections = s.data.connections.delete (fun r => r.id = id) ∧
      deleteConnection cfg s call id = (s', .ok ()) := by
  unfold deleteConnection
  rcases behindWriter_cases cfg s call _ with
    ⟨e, -, heq⟩ | ⟨actor, -, heq⟩
  · exact Or.inl ⟨e, heq⟩
  · rw [heq]
    cases hdelete : Db.deleteConnection s.data id with
    | error e => exact Or.inl ⟨repoErr e, rfl⟩
    | ok data =>
        refine Or.inr ⟨_, ?_, rfl⟩
        change data.connections = _
        rw [Db.deleteConnection_ok hdelete]
        rfl

/-- No handler but those of a connection and of the deletion of a site writes to the
connections. -/
theorem importFrom_connections (req : ErpImportRequest) :
    (Edge.importFrom cfg s call req).1.data.connections = s.data.connections := by
  unfold Edge.importFrom
  rcases behindWriter_cases cfg s call _ with
    ⟨e, -, heq⟩ | ⟨actor, -, heq⟩
  · rw [heq]
  · rw [heq]
    dsimp only
    split <;> rfl

theorem exportTo_connections (req : ErpExportRequest) :
    (Edge.exportTo cfg s call req).1.data.connections = s.data.connections := by
  unfold Edge.exportTo
  rcases behindWriter_cases cfg s call _ with
    ⟨e, -, heq⟩ | ⟨actor, -, heq⟩
  · rw [heq]
  · rw [heq]
    dsimp only
    split <;> rfl

/-- The site that a write to the master data takes away. -/
def siteGone : Master.MasterWrite → Except ApiErr Master.Written → Option String
  | .deleteSite id, .ok _ => some id
  | _, _ => none

theorem writeMaster_connections (w : Master.MasterWrite) :
    (writeMaster cfg s call w).1.data.connections =
      match siteGone w (writeMaster cfg s call w).2 with
      | some id => s.data.connections.delete fun r => r.siteId = some id
      | none => s.data.connections := by
  unfold writeMaster
  generalize Master.handleWrite cfg.auth s.data.master call.toCall w = handled
  obtain ⟨master, result⟩ := handled
  cases result with
  | error e => cases w <;> rfl
  | ok out => cases w <;> rfl

end Cases

end ElectronixMes.Integration
