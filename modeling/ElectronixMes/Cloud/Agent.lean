import ElectronixMes.Cloud.Copilot
import ElectronixMes.Cloud.Provisioning
import ElectronixMes.Serde.Text

/-!
# The front doors of the agents (crates/mes-cloud/src/agent.rs)

The copilot and the MCP server, both behind an enrollment token, from which the scope of the
tools comes. The MCP server takes one JSON-RPC request at a time. The rows that the copilot
leaves in its own audit table, which nothing reads, are not modelled.
-/

namespace ElectronixMes.Cloud

open AgentTools Db Serde

/-- A value as text. -/
def jsonText (ft : FloatText) (v : Json) : String := String.ofList (render ft v)

section FrontDoors

variable (hashToken : String → String) (c : Codec) (ft : FloatText) (db : Database)
  (authorization : Option String)

/-- The scope of a request, from its token alone. -/
def resolveScope : Except ApiErr TenantScope :=
  match bearer authorization with
  | none => .error ⟨401, "unauthorized", "missing tenant token"⟩
  | some token =>
      match resolveTenantByToken hashToken db token with
      | some (_, orgId) => .ok ⟨orgId⟩
      | none => .error ⟨401, "unauthorized", "invalid tenant token"⟩

def copilotErr : CopilotError → ApiErr
  | .unavailable m => ⟨503, "copilot_unavailable", m⟩
  | .llm m => ⟨502, "llm_error", m⟩
  | .noConverge => ⟨500, "no_converge", "tool loop did not converge"⟩

def copilot (backend : LlmBackend) (message : String) : Except ApiErr CopilotResponse :=
  match resolveScope hashToken db authorization with
  | .error e => .error e
  | .ok scope => (runCopilot c (jsonText ft) db backend scope message).mapError copilotErr

/-- What `initialize` answers. -/
def serverInfo : Json :=
  .obj [("capabilities", .obj [("tools", .obj [])]), ("protocolVersion", .str "2024-11-05"),
    ("serverInfo", .obj [("name", .str "electronix-mes"), ("version", .str "0.1.0")])]

/-- What `tools/list` answers. -/
def toolList : Json :=
  .obj [("tools", .arr (catalog.map fun t =>
    .obj [("description", .str t.description), ("inputSchema", t.inputSchema),
      ("name", .str t.name)]))]

/-- One block of text as the result of a tool. -/
def toolContent (text : String) (isError : Bool) : Json :=
  .obj [("content", .arr [.obj [("text", .str text), ("type", .str "text")]]),
    ("isError", .bool isError)]

/-- The result of a tool call; a failure of the tool is a result, too. -/
def callTool (scope : TenantScope) (name : String) (args : Json) : Json :=
  match dispatch c db scope name args with
  | .ok v => toolContent (jsonText ft v) false
  | .error e => toolContent e.text true

/-- A member of a request, or what stands for one that is missing. -/
def memberOr (v : Json) (key : String) (d : Json) : Json := (v.get? key).getD d

/-- The text of a member, or the empty one. -/
def textOr (v : Json) (key : String) : String := ((v.get? key).bind Json.asString).getD ""

def resultEnvelope (id result : Json) : Json :=
  .obj [("id", id), ("jsonrpc", .str "2.0"), ("result", result)]

def errorEnvelope (id : Json) (code : Int) (message : String) : Json :=
  .obj [("error", .obj [("code", .int code), ("message", .str message)]), ("id", id),
    ("jsonrpc", .str "2.0")]

/-- A single JSON-RPC request. -/
def mcp (req : Json) : Except ApiErr Json :=
  match resolveScope hashToken db authorization with
  | .error e => .error e
  | .ok scope =>
      let id := memberOr req "id" .null
      match textOr req "method" with
      | "initialize" => .ok (resultEnvelope id serverInfo)
      | "notifications/initialized" => .ok .null
      | "tools/list" => .ok (resultEnvelope id toolList)
      | "tools/call" =>
          let params := memberOr req "params" (.obj [])
          .ok (resultEnvelope id
            (callTool c ft db scope (textOr params "name") (memberOr params "arguments" (.obj []))))
      | other => .ok (errorEnvelope id (-32601) ("method not found: " ++ other))

end FrontDoors

end ElectronixMes.Cloud
