import ElectronixMes.AgentTools.Totals
import ElectronixMes.Tenants.Visibility

/-!
# One tool behind two doors

The MCP server puts the JSON text of a tool's answer as a string into its own JSON reply. A
client that reads the reply and then the text has exactly what the dispatcher answered under the
scope of the token, and the text is the one that the copilot shows its model for the same call.
-/

namespace ElectronixMes.Tenants

open Relational Db Cloud Serde AgentTools

variable {c : Codec} {ft : FloatText} {db : Database} {scope : TenantScope}

/-! ## The answers of the tools can be written -/

/-- A quantity is written as a scalar. -/
def ScalarQuantities (c : Codec) (ft : FloatText) (db : Database) : Prop :=
  ∀ w ∈ db.workOrders, (c.decimalToJson w.qtyOrdered).Fits ft 0

theorem fits_optStringToJson (s : Option String) : (optStringToJson s).Fits ft 0 := by
  cases s <;> exact trivial

theorem fits_woItem {w : WorkOrderRow} (hqty : (c.decimalToJson w.qtyOrdered).Fits ft 0) :
    (woItem c w).Fits ft 1 := by
  intro p hp
  simp only [List.mem_cons, List.not_mem_nil, or_false] at hp
  rcases hp with rfl | rfl | rfl | rfl
  · exact fits_optStringToJson w.plantId
  · exact hqty
  · trivial
  · trivial

/-- No count exceeds the number of rows. -/
theorem countsByStatus_le {rows : List WorkOrderRow} {e : String × Int}
    (he : e ∈ countsByStatus rows) : 0 ≤ e.2 ∧ e.2 ≤ rows.length := by
  have hlookup := ((countsByStatus_ascending rows).lookup_eq_some).mpr he
  rw [lookup_countsByStatus] at hlookup
  split at hlookup
  · cases hlookup
  · rw [← Option.some.inj hlookup]
    have hle : statusCount rows e.1 ≤ rows.length := List.countP_le_length
    omega

theorem fits_woAnswer {rows : List WorkOrderRow} (hlength : rows.length ≤ 200)
    (hqty : ∀ w ∈ rows, (c.decimalToJson w.qtyOrdered).Fits ft 0) :
    (woAnswer c rows).Fits ft 3 := by
  intro p hp
  simp only [List.mem_cons, List.not_mem_nil, or_false] at hp
  rcases hp with rfl | rfl | rfl
  · intro q hq
    obtain ⟨e, he, rfl⟩ := List.mem_map.mp hq
    obtain ⟨hnonneg, hle⟩ := countsByStatus_le he
    constructor <;> omega
  · constructor <;> omega
  · intro v hv
    obtain ⟨w, hw, rfl⟩ := List.mem_map.mp hv
    exact fits_woItem (hqty w hw)

theorem fits_pending (aggregate : String) : (pending aggregate).Fits ft 3 := by
  intro p hp
  simp only [List.mem_cons, List.not_mem_nil, or_false] at hp
  rcases hp with rfl | rfl
  · exact fun v hv => absurd hv List.not_mem_nil
  · trivial

/-- Whatever a tool answers, a text can carry. -/
theorem fits_dispatch (hqty : ScalarQuantities c ft db) {name : String} {args v : Json}
    (h : dispatch c db scope name args = .ok v) : v.Fits ft 3 := by
  unfold dispatch at h
  split at h
  · rw [getWoStatus_eq_ok h]
    apply fits_woAnswer
    · exact List.length_take_le _ _
    · intro w hw
      have hmatching := (List.mem_insertionSort _).mp (List.mem_of_mem_take hw)
      exact hqty w (mem_matchingOrders.mp hmatching).1
  · cases h
    exact fits_pending _
  · cases h
    exact fits_pending _
  · cases h
    exact fits_pending _
  · cases h
    exact fits_pending _
  · cases h
    exact fits_pending _
  · cases h

/-! ## Reading a reply -/

/-- What a client reads of the reply to a tool call: whether it reports an error, and the text
of its only block. -/
def readCall (ft : FloatText) (reply : List Char) : Option (Bool × String) := do
  let result ← (← parse ft reply).get? "result"
  match ← result.get? "content", ← result.get? "isError" with
  | .arr [block], .bool isError => some (isError, ← (← block.get? "text").asString)
  | _, _ => none

theorem parse_render_self {depth : ℕ} {v : Json} (h : v.Fits ft depth)
    (hdepth : depth < recursionLimit) : parse ft (render ft v) = some v := by
  have hnone : ∀ c ∈ ([] : List Char), isBlank c = true :=
    fun _ hc => absurd hc List.not_mem_nil
  have hparse := parse_render h hdepth hnone hnone
  rw [List.nil_append, List.append_nil] at hparse
  exact hparse

theorem parse_jsonText {depth : ℕ} {v : Json} (h : v.Fits ft depth)
    (hdepth : depth < recursionLimit) : parse ft (jsonText ft v).toList = some v := by
  rw [jsonText, String.toList_ofList]
  exact parse_render_self h hdepth

theorem fits_toolContent (text : String) (isError : Bool) :
    (toolContent text isError).Fits ft 3 := by
  simp [toolContent, Json.Carried]

theorem fits_resultEnvelope {depth : ℕ} {id result : Json} (hid : id.Fits ft depth)
    (hresult : result.Fits ft depth) : (resultEnvelope id result).Fits ft (depth + 1) := by
  intro p hp
  simp only [List.mem_cons, List.not_mem_nil, or_false] at hp
  rcases hp with rfl | rfl | rfl
  · exact hid
  · cases depth <;> trivial
  · exact hresult

section Call

variable {hashToken : String → String} {authorization : Option String} {req : Json}

/-- The tool that a request calls, and its arguments. -/
def calledName (req : Json) : String := textOr (memberOr req "params" (.obj [])) "name"

def calledArguments (req : Json) : Json :=
  memberOr (memberOr req "params" (.obj [])) "arguments" (.obj [])

theorem mcp_call (hscope : resolveScope hashToken db authorization = .ok scope)
    (hmethod : textOr req "method" = "tools/call") :
    mcp hashToken c ft db authorization req =
      .ok (resultEnvelope (memberOr req "id" .null)
        (callTool c ft db scope (calledName req) (calledArguments req))) := by
  simp only [mcp, hscope, hmethod]
  rfl

theorem parse_resultEnvelope {depth : ℕ} {id : Json} (hid : id.Fits ft depth)
    (hdepth : depth + 1 < recursionLimit) (text : String) (isError : Bool) :
    parse ft (render ft (resultEnvelope id (toolContent text isError))) =
      some (resultEnvelope id (toolContent text isError)) := by
  have hfits : (resultEnvelope id (toolContent text isError)).Fits ft (max depth 3 + 1) :=
    fits_resultEnvelope (hid.mono (le_max_left depth 3))
      ((fits_toolContent text isError).mono (le_max_right depth 3))
  apply parse_render_self hfits
  unfold recursionLimit at hdepth ⊢
  omega

theorem readCall_resultEnvelope {depth : ℕ} {id : Json} (hid : id.Fits ft depth)
    (hdepth : depth + 1 < recursionLimit) (text : String) (isError : Bool) :
    readCall ft (render ft (resultEnvelope id (toolContent text isError))) =
      some (isError, text) := by
  rw [readCall, parse_resultEnvelope hid hdepth]
  rfl

theorem callTool_eq (c : Codec) (ft : FloatText) (db : Database) (scope : TenantScope)
    (name : String) (args : Json) :
    ∃ text isError, callTool c ft db scope name args = toolContent text isError := by
  unfold callTool
  split
  · exact ⟨_, _, rfl⟩
  · exact ⟨_, _, rfl⟩

/-- A client that reads the reply to a tool call finds its own id, and the text of exactly what
the dispatcher answered under the organisation of the token, the text that the copilot shows its
model for the same call. -/
theorem mcp_call_read (hqty : ScalarQuantities c ft db)
    (hscope : resolveScope hashToken db authorization = .ok scope)
    (hmethod : textOr req "method" = "tools/call") {depth : ℕ}
    (hid : (memberOr req "id" .null).Fits ft depth) (hdepth : depth + 1 < recursionLimit) :
    ∃ reply, mcp hashToken c ft db authorization req = .ok reply ∧
      (parse ft (render ft reply)).bind (·.get? "id") = some (memberOr req "id" .null) ∧
      (∀ v, dispatch c db scope (calledName req) (calledArguments req) = .ok v →
        ∃ text, readCall ft (render ft reply) = some (false, text) ∧
          parse ft text.toList = some v ∧
          ∀ useId, toolResult c (jsonText ft) db scope useId (calledName req)
            (calledArguments req) = .toolResult useId text) ∧
      (∀ e, dispatch c db scope (calledName req) (calledArguments req) = .error e →
        readCall ft (render ft reply) = some (true, e.text) ∧
          ∃ text, parse ft text.toList = some (.obj [("error", .str e.text)]) ∧
            ∀ useId, toolResult c (jsonText ft) db scope useId (calledName req)
              (calledArguments req) = .toolResult useId text) := by
  refine ⟨_, mcp_call hscope hmethod, ?_, ?_, ?_⟩
  · obtain ⟨text, isError, hcontent⟩ :=
      callTool_eq c ft db scope (calledName req) (calledArguments req)
    rw [hcontent, parse_resultEnvelope hid hdepth]
    rfl
  · intro v hv
    refine ⟨jsonText ft v, ?_, parse_jsonText (fits_dispatch hqty hv) (by decide), ?_⟩
    · rw [callTool, hv]
      exact readCall_resultEnvelope hid hdepth _ _
    · intro useId
      rw [toolResult, hv]
  · intro e he
    refine ⟨?_, jsonText ft (.obj [("error", .str e.text)]), ?_, ?_⟩
    · rw [callTool, he]
      exact readCall_resultEnvelope hid hdepth _ _
    · have hfits : (Json.obj [("error", .str e.text)]).Fits ft 1 := by simp [Json.Carried]
      exact parse_jsonText hfits (by decide)
    · intro useId
      rw [toolResult, he]

def askOee : Json :=
  .obj [("id", .int 7), ("method", .str "tools/call"),
    ("params", .obj [("name", .str "get_oee")])]

/-- The second plant asks, and finds the note about the aggregate in the text of the reply. -/
theorem askOee_read :
    ∃ reply text, mcp plainCloud.hashToken Codec.sample noFloats
        (stateAt plainCloud partCloud pushOne 4).db (some "Bearer plant_BBB") askOee = .ok reply ∧
      readCall noFloats (render noFloats reply) = some (false, text) ∧
      parse noFloats text.toList = some (pending "OEE") := by
  have hqty : ScalarQuantities Codec.sample noFloats
      (stateAt plainCloud partCloud pushOne 4).db := by
    intro w hw
    obtain rfl : w = pushedRow := List.mem_singleton.mp hw
    exact trivial
  have hid : (memberOr askOee "id" .null).Fits noFloats 0 := by
    change Fits64 7
    decide
  obtain ⟨reply, hreply, -, hanswer, -⟩ :=
    @mcp_call_read Codec.sample noFloats (stateAt plainCloud partCloud pushOne 4).db ⟨"org"⟩
      plainCloud.hashToken (some "Bearer plant_BBB") askOee hqty rfl rfl 0 hid (by decide)
  obtain ⟨text, hread, hparse, -⟩ := hanswer _ rfl
  exact ⟨reply, text, hreply, hread, hparse⟩

end Call

end ElectronixMes.Tenants
