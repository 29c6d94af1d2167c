import ElectronixMes.AgentTools.Tools

/-!
# The supervisor copilot (crates/mes-cloud/src/copilot.rs)

A stateless tool-use loop: a model backend is shown the transcript and the tool catalog,
and each tool it asks for is run through the dispatcher under the caller's scope. The
backend is an arbitrary function of what it is shown.
-/

namespace ElectronixMes.Cloud

open AgentTools Db Relational Serde

inductive CopilotError where
  | unavailable (text : String)
  | llm (text : String)
  | noConverge

/-- One content block of a message. -/
inductive Block where
  | text (text : String)
  | toolUse (id name : String) (input : Json)
  | toolResult (toolUseId content : String)

structure Message where
  role : String
  content : List Block

/-- One assistant turn. -/
structure AssistantReply where
  content : List Block

/-- A model backend: the system prompt, the messages so far and the tools. -/
abbrev LlmBackend := String → List Message → List ToolDef → Except CopilotError AssistantReply

structure CopilotToolCall where
  name : String
  arguments : Json

structure CopilotResponse where
  reply : String
  toolCalls : List CopilotToolCall

def system : String :=
  "You are the ElectronIx MES supervisor copilot. Answer questions about this plant's " ++
    "production using the read-only tools provided. All tool results are already scoped to " ++
    "the caller's organisation. Be concise and specific."

def maxTurns : ℕ := 8

/-- The tools a reply asks for. -/
def toolUses (content : List Block) : List (String × String × Json) :=
  content.filterMap fun
    | .toolUse id name input => some (id, name, input)
    | _ => none

/-- The block asks for a tool. -/
def Block.isToolUse : Block → Bool
  | .toolUse .. => true
  | .text _ | .toolResult .. => false

/-- Every block that asks for a tool is listed, once and in order, and no other. -/
theorem map_toolUses (content : List Block) :
    (toolUses content).map (fun u => Block.toolUse u.1 u.2.1 u.2.2) =
      content.filter Block.isToolUse := by
  induction content with
  | nil => rfl
  | cons block rest ih =>
      cases block with
      | toolUse id name input => exact congrArg (Block.toolUse id name input :: ·) ih
      | text | toolResult => exact ih

/-- The text of a reply. -/
def replyText (content : List Block) : String :=
  "\n".intercalate (content.filterMap fun
    | .text text => some text
    | _ => none)

section Loop

-- How a JSON value is written as text belongs to the library.
variable (c : Codec) (toString : Json → String)

/-- Run one requested tool and write its result, or its error, as a block. -/
def toolResult (db : Database) (scope : TenantScope) (id name : String) (input : Json) : Block :=
  .toolResult id <|
    match dispatch c db scope name input with
    | .ok v => toString v
    | .error e => toString (.obj [("error", .str e.text)])

/-- The loop, with the turns it has left. -/
def copilotLoop (db : Database) (backend : LlmBackend) (scope : TenantScope) :
    ℕ → List Message → List CopilotToolCall → Except CopilotError CopilotResponse
  | 0, _, _ => .error .noConverge
  | turns + 1, messages, toolCalls =>
      match backend system messages catalog with
      | .error e => .error e
      | .ok reply =>
          let uses := toolUses reply.content
          if uses.isEmpty then .ok ⟨replyText reply.content, toolCalls⟩
          else
            copilotLoop db backend scope turns
              (messages ++ [⟨"assistant", reply.content⟩,
                ⟨"user", uses.map fun u => toolResult c toString db scope u.1 u.2.1 u.2.2⟩])
              (toolCalls ++ uses.map fun u => ⟨u.2.1, u.2.2⟩)

/-- Run the tool-use loop for one user message. -/
def runCopilot (db : Database) (backend : LlmBackend) (scope : TenantScope)
    (userMessage : String) : Except CopilotError CopilotResponse :=
  copilotLoop c toString db backend scope maxTurns [⟨"user", [.text userMessage]⟩] []

variable {c toString}

/-- Databases whose tools answer alike cannot be told apart by the loop, whatever the
transcript has come to. -/
theorem copilotLoop_eq {db₁ db₂ : Database} {scope : TenantScope}
    (h : ∀ name args, dispatch c db₁ scope name args = dispatch c db₂ scope name args)
    (backend : LlmBackend) (turns : ℕ) (messages : List Message)
    (toolCalls : List CopilotToolCall) :
    copilotLoop c toString db₁ backend scope turns messages toolCalls
      = copilotLoop c toString db₂ backend scope turns messages toolCalls := by
  induction turns generalizing messages toolCalls with
  | zero => rfl
  | succ turns ih =>
      unfold copilotLoop
      cases backend system messages catalog with
      | error e => rfl
      | ok reply =>
          dsimp only [toolResult]
          simp only [h]
          split
          · rfl
          · exact ih _ _

end Loop

/-- Neither a tool call nor a conversation with any backend tells apart two databases that
agree on the plants and the orders of the scope's organisation. -/
theorem agents_isolated (c : Codec) (toString : Json → String) (orgId : String)
    (db₁ db₂ : Database) (hagree : AgreeOn orgId db₁ db₂) (hapart : CreatedApart orgId db₁) :
    (∀ name args, dispatch c db₁ ⟨orgId⟩ name args = dispatch c db₂ ⟨orgId⟩ name args)
      ∧ ∀ (backend : LlmBackend) (userMessage : String),
          runCopilot c toString db₁ backend ⟨orgId⟩ userMessage
            = runCopilot c toString db₂ backend ⟨orgId⟩ userMessage := by
  have hdispatch := hagree.dispatch_eq hapart c
  refine ⟨hdispatch, ?_⟩
  intro backend userMessage
  exact copilotLoop_eq hdispatch backend maxTurns _ _

mutual

/-- The compact text of a value whose texts need no escapes. -/
def compactText : Json → String
  | .null => "null"
  | .bool b => if b then "true" else "false"
  | .int n => n.repr
  | .float _ => "0.0"
  | .str s => "\"" ++ s ++ "\""
  | .arr items => "[" ++ ",".intercalate (compactItems items) ++ "]"
  | .obj fields => "\x7b" ++ ",".intercalate (compactFields fields) ++ "\x7d"

def compactItems : List Json → List String
  | [] => []
  | v :: rest => compactText v :: compactItems rest

def compactFields : List (String × Json) → List String
  | [] => []
  | (k, v) :: rest => ("\"" ++ k ++ "\":" ++ compactText v) :: compactFields rest

end

def acmePlant : PlantRow := ⟨"p1", "acme", "P1", "Plant 1", none, none⟩

def otherPlant : PlantRow := ⟨"p2", "other", "P2", "Plant 2", none, none⟩

def plantOrder (id plantId status : String) (createdAt : Int) : WorkOrderRow :=
  ⟨id, "WO-" ++ id, "part", none, ⟨10, 0⟩, 0, status, none, none, some plantId, createdAt,
    createdAt⟩

/-- One organisation alone. -/
def acmeCloud : Database where
  plants := ⟨[acmePlant], List.nodup_singleton _⟩
  workOrders := ⟨[plantOrder "1" "p1" "released" 1], List.nodup_singleton _⟩

/-- The same organisation next to another one. -/
def sharedCloud : Database where
  plants := ⟨[otherPlant, acmePlant], by decide⟩
  workOrders := ⟨[plantOrder "2" "p2" "draft" 2, plantOrder "1" "p1" "released" 1], by decide⟩

/-- A backend that asks for the orders and repeats what it is told. -/
def curious : LlmBackend := fun _ messages _ =>
  match (messages.getLast?.map Message.content).getD [] with
  | [.toolResult _ content] => .ok ⟨[.text content]⟩
  | _ => .ok ⟨[.toolUse "t1" "get_wo_status" (.obj [("org_id", .str "other")])]⟩

theorem acme_isolated :
    AgreeOn "acme" acmeCloud sharedCloud
      ∧ runCopilot Codec.sample compactText acmeCloud curious ⟨"acme"⟩ "orders?"
        = runCopilot Codec.sample compactText sharedCloud curious ⟨"acme"⟩ "orders?" := by
  have hagree : AgreeOn "acme" acmeCloud sharedCloud := by
    constructor
    · intro p horg
      have hne : p ≠ otherPlant := fun h => absurd (h ▸ horg) (by decide)
      simp [acmeCloud, sharedCloud, Table.mem_mk, hne]
    · intro p hp _ w hw
      rw [List.mem_singleton.mp hp] at hw
      have hne : w ≠ plantOrder "2" "p2" "draft" 2 := fun h => absurd (h ▸ hw) (by decide)
      simp [acmeCloud, sharedCloud, Table.mem_mk, hne]
  have hapart : CreatedApart "acme" acmeCloud := by
    intro w hw v hv _ _ _
    rw [List.mem_singleton.mp hw, List.mem_singleton.mp hv]
  exact ⟨hagree, (agents_isolated Codec.sample compactText "acme" acmeCloud sharedCloud hagree
    hapart).2 curious "orders?"⟩

end ElectronixMes.Cloud
