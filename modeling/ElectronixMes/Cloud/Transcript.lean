import ElectronixMes.Cloud.Copilot

/-!
# The transcript of the copilot

The loop hands the backend a transcript that it builds from the backend's own replies. A
transcript is longer than the one before it, so a backend that is a function of what it
is shown can reply in any way at every turn; and the outcome of a tool is given here for
every call on its own, so that the database may change between two calls.
-/

namespace ElectronixMes.Cloud

open AgentTools Db Relational Serde

section Loop

/-- The outcome of a tool call: behind which transcript it was asked for, its place among
the calls of that reply, the tool and its input. -/
abbrev ToolOutcome := List Message → ℕ → String → Json → Except AgentToolError Json

/-- The block that answers a tool use. -/
def outcomeBlock (toString : Json → String) (id : String) (outcome : Except AgentToolError Json) :
    Block :=
  .toolResult id <|
    match outcome with
    | .ok v => toString v
    | .error e => toString (.obj [("error", .str e.text)])

/-- The results of the tools of one reply, in the order in which they were asked for. -/
def results (toString : Json → String) (tools : ToolOutcome) (messages : List Message)
    (uses : List (String × String × Json)) : List Block :=
  uses.mapIdx fun i u => outcomeBlock toString u.1 (tools messages i u.2.1 u.2.2)

def toolCall (u : String × String × Json) : CopilotToolCall := ⟨u.2.1, u.2.2⟩

/-- The transcripts that the backend was shown, and how the loop ended. -/
structure Conversation where
  shown : List (List Message)
  outcome : Except CopilotError CopilotResponse

variable (toString : Json → String) (backend : LlmBackend) (tools : ToolOutcome)

/-- The loop of `copilotLoop`, with every transcript it passes to the backend. -/
def converse : ℕ → List Message → List CopilotToolCall → Conversation
  | 0, _, _ => ⟨[], .error .noConverge⟩
  | turns + 1, messages, toolCalls =>
      match backend system messages catalog with
      | .error e => ⟨[messages], .error e⟩
      | .ok reply =>
          let uses := toolUses reply.content
          if uses.isEmpty then ⟨[messages], .ok ⟨replyText reply.content, toolCalls⟩⟩
          else
            let rest := converse turns
              (messages ++ [⟨"assistant", reply.content⟩,
                ⟨"user", results toString tools messages uses⟩])
              (toolCalls ++ uses.map toolCall)
            ⟨messages :: rest.shown, rest.outcome⟩

/-- The whole conversation about one user message. -/
def conversation (userMessage : String) : Conversation :=
  converse toString backend tools maxTurns [⟨"user", [.text userMessage]⟩] []

variable {toString backend tools} {messages : List Message} {toolCalls : List CopilotToolCall}

/-- With tools that read one database this is the loop of the copilot. -/
theorem converse_outcome (c : Codec) (db : Database) (scope : TenantScope) (turns : ℕ)
    (messages : List Message) (toolCalls : List CopilotToolCall) :
    (converse toString backend (fun _ _ name input => dispatch c db scope name input) turns
        messages toolCalls).outcome
      = copilotLoop c toString db backend scope turns messages toolCalls := by
  induction turns generalizing messages toolCalls with
  | zero => rfl
  | succ turns ih =>
      have hresults : ∀ uses, results toString
          (fun _ _ name input => dispatch c db scope name input) messages uses
            = uses.map fun u => toolResult c toString db scope u.1 u.2.1 u.2.2 := by
        intro uses
        apply List.ext_getElem?
        intro i
        rw [results, List.getElem?_mapIdx, List.getElem?_map]
        rfl
      unfold converse copilotLoop
      cases backend system messages catalog with
      | error e => rfl
      | ok reply =>
          dsimp only
          split
          · rfl
          · rw [hresults]
            exact ih _ _

/-- Nothing but the replies to the transcripts shown enters the conversation. -/
theorem converse_congr {backend' : LlmBackend} {turns : ℕ}
    (h : ∀ shown ∈ (converse toString backend tools turns messages toolCalls).shown,
      backend' system shown catalog = backend system shown catalog) :
    converse toString backend' tools turns messages toolCalls
      = converse toString backend tools turns messages toolCalls := by
  induction turns generalizing messages toolCalls with
  | zero => rfl
  | succ turns ih =>
      have hhere : messages ∈ (converse toString backend tools (turns + 1) messages
          toolCalls).shown := by
        unfold converse
        split
        · exact List.mem_singleton_self _
        · dsimp only
          split
          · exact List.mem_singleton_self _
          · exact List.mem_cons_self
      have hreply := h messages hhere
      unfold converse at h ⊢
      rw [hreply]
      cases hbackend : backend system messages catalog with
      | error e => rfl
      | ok reply =>
          rw [hbackend] at h
          dsimp only at h ⊢
          split
          · rfl
          · rename_i huses
            rw [if_neg huses] at h
            rw [ih fun shown hshown => h shown (List.mem_cons_of_mem _ hshown)]

end Loop

section WellFormed

/-- A block that is the result of this tool use. -/
def Answers (block : Block) (use : String × String × Json) : Prop :=
  ∃ content, block = .toolResult use.1 content

/-- The messages of a transcript that the backend is shown: user and assistant in turn,
from the user's message on, and behind each message of the assistant the results of its
tools, one for each use and in the same order. -/
structure WellFormed (userMessage : String) (messages : List Message) : Prop where
  opening : messages.head? = some ⟨"user", [.text userMessage]⟩
  alternates : ∀ i m, messages[i]? = some m → m.role = if i % 2 = 0 then "user" else "assistant"
  answered : ∀ i m, messages[i]? = some m → m.role = "assistant" →
    ∃ answer, messages[i + 1]? = some answer ∧ answer.role = "user"
      ∧ List.Forall₂ Answers answer.content (toolUses m.content)

/-- All tool uses of a transcript. -/
def transcriptCalls (messages : List Message) : List CopilotToolCall :=
  messages.flatMap fun m => (toolUses m.content).map toolCall

variable {toString : Json → String} {backend : LlmBackend} {tools : ToolOutcome}
  {userMessage : String} {messages : List Message}

theorem user_ne_assistant : "user" ≠ "assistant" := by decide

theorem forall₂_results (toString : Json → String) (tools : ToolOutcome)
    (messages : List Message) (uses : List (String × String × Json)) :
    List.Forall₂ Answers (results toString tools messages uses) uses := by
  rw [List.forall₂_iff_get]
  refine ⟨by simp [results], ?_⟩
  intro i hi hi'
  simp only [results, List.get_eq_getElem, List.getElem_mapIdx]
  exact ⟨_, rfl⟩

/-- Results ask for nothing. -/
theorem toolUses_results (toString : Json → String) (tools : ToolOutcome)
    (messages : List Message) (uses : List (String × String × Json)) :
    toolUses (results toString tools messages uses) = [] := by
  apply List.filterMap_eq_nil_iff.mpr
  intro block hblock
  obtain ⟨i, hi, rfl⟩ := List.mem_mapIdx.mp hblock
  rfl

theorem wellFormed_opening (userMessage : String) :
    WellFormed userMessage [⟨"user", [.text userMessage]⟩] := by
  constructor
  · rfl
  · intro i m hm
    cases i with
    | zero =>
        obtain rfl := Option.some.inj hm
        rfl
    | succ i => simp at hm
  · intro i m hm hrole
    cases i with
    | zero =>
        obtain rfl := Option.some.inj hm
        exact absurd hrole user_ne_assistant
    | succ i => simp at hm

/-- A message of the assistant is never the last one. -/
theorem WellFormed.length_odd (h : WellFormed userMessage messages) :
    messages.length % 2 = 1 := by
  have hne : messages ≠ [] := by
    intro hnil
    have hopening := h.opening
    simp [hnil] at hopening
  have hpos : 0 < messages.length := List.length_pos_iff.mpr hne
  by_contra heven
  have hlast : messages.length - 1 < messages.length := by omega
  have hm := List.getElem?_eq_getElem hlast
  have hrole := h.alternates _ _ hm
  rw [if_neg (by omega)] at hrole
  obtain ⟨answer, hanswer, -⟩ := h.answered _ _ hm hrole
  rw [List.getElem?_eq_none (by omega)] at hanswer
  exact absurd hanswer (Option.some_ne_none answer).symm

theorem getElem?_append_pair {α : Type*} {l : List α} {x y m : α} {i : ℕ}
    (h : (l ++ [x, y])[i]? = some m) :
    l[i]? = some m ∨ i = l.length ∧ m = x ∨ i = l.length + 1 ∧ m = y := by
  by_cases hi : i < l.length
  · rw [List.getElem?_append_left hi] at h
    exact Or.inl h
  · rw [List.getElem?_append_right (not_lt.mp hi)] at h
    obtain ⟨k, rfl⟩ := Nat.exists_eq_add_of_le (not_lt.mp hi)
    rw [Nat.add_sub_cancel_left] at h
    match k, h with
    | 0, h => exact Or.inr (Or.inl ⟨rfl, (Option.some.inj h).symm⟩)
    | 1, h => exact Or.inr (Or.inr ⟨rfl, (Option.some.inj h).symm⟩)
    | k + 2, h => simp at h

/-- One turn of the loop keeps the transcript well formed, whatever the reply holds. -/
theorem WellFormed.turn (h : WellFormed userMessage messages) (content : List Block) :
    WellFormed userMessage (messages ++ [⟨"assistant", content⟩,
      ⟨"user", results toString tools messages (toolUses content)⟩]) := by
  have hodd := h.length_odd
  constructor
  · rw [List.head?_append, h.opening, Option.some_or]
  · intro i m hm
    obtain hold | ⟨rfl, rfl⟩ | ⟨rfl, rfl⟩ := getElem?_append_pair hm
    · exact h.alternates i m hold
    · rw [if_neg (by omega)]
    · rw [if_pos (by omega)]
  · intro i m hm hrole
    obtain hold | ⟨rfl, rfl⟩ | ⟨rfl, rfl⟩ := getElem?_append_pair hm
    · obtain ⟨answer, hanswer, hrest⟩ := h.answered i m hold hrole
      have hnext : i + 1 < messages.length := (List.getElem?_eq_some_iff.mp hanswer).1
      rw [List.getElem?_append_left hnext]
      exact ⟨answer, hanswer, hrest⟩
    · rw [List.getElem?_append_right (Nat.le_add_right _ 1), Nat.add_sub_cancel_left]
      exact ⟨_, rfl, rfl, forall₂_results toString tools messages _⟩
    · exact absurd hrole user_ne_assistant

/-- What one turn adds to the tool uses. -/
theorem transcriptCalls_turn (messages : List Message) (content : List Block) :
    transcriptCalls (messages ++ [⟨"assistant", content⟩,
        ⟨"user", results toString tools messages (toolUses content)⟩])
      = transcriptCalls messages ++ (toolUses content).map toolCall := by
  simp only [transcriptCalls, List.flatMap_append, List.flatMap_cons, List.flatMap_nil,
    toolUses_results, List.map_nil, List.append_nil]

theorem transcriptCalls_last (messages : List Message) {content : List Block}
    (h : toolUses content = []) :
    transcriptCalls (messages ++ [⟨"assistant", content⟩]) = transcriptCalls messages := by
  simp only [transcriptCalls, List.flatMap_append, List.flatMap_cons, List.flatMap_nil, h,
    List.map_nil, List.append_nil]

/-- A run of the loop from a well-formed transcript shows well-formed ones only. -/
theorem converse_wellFormed (turns : ℕ) (toolCalls : List CopilotToolCall)
    (h : WellFormed userMessage messages) :
    ∀ shown ∈ (converse toString backend tools turns messages toolCalls).shown,
      WellFormed userMessage shown := by
  induction turns generalizing messages toolCalls with
  | zero =>
      intro shown hshown
      exact absurd hshown List.not_mem_nil
  | succ turns ih =>
      intro shown hshown
      unfold converse at hshown
      split at hshown
      · rw [List.mem_singleton.mp hshown]
        exact h
      · rename_i reply hreply
        dsimp only at hshown
        split at hshown
        · rw [List.mem_singleton.mp hshown]
          exact h
        · apply (List.mem_cons.mp hshown).elim
          · intro hhere
            rw [hhere]
            exact h
          · exact ih _ (h.turn reply.content) shown

/-- The backend is asked once in every turn at most. -/
theorem length_shown_le (turns : ℕ) (messages : List Message)
    (toolCalls : List CopilotToolCall) :
    (converse toString backend tools turns messages toolCalls).shown.length ≤ turns := by
  induction turns generalizing messages toolCalls with
  | zero => exact le_rfl
  | succ turns ih =>
      unfold converse
      split
      · simp
      · dsimp only
        split
        · simp
        · exact Nat.succ_le_succ (ih _ _)

/-- How a conversation that succeeds has ended: the last transcript shown was answered
without a tool use, and what is returned is the text of this reply and every tool use. -/
structure Concluded (backend : LlmBackend) (run : Conversation) (response : CopilotResponse)
    (last : List Message) (reply : AssistantReply) : Prop where
  shown : run.shown.getLast? = some last
  replied : backend system last catalog = .ok reply
  no_uses : toolUses reply.content = []
  reply_eq : response.reply = replyText reply.content
  toolCalls_eq :
    response.toolCalls = transcriptCalls (last ++ [⟨"assistant", reply.content⟩])

theorem converse_concluded {turns : ℕ} {toolCalls : List CopilotToolCall}
    {response : CopilotResponse} (hcalls : transcriptCalls messages = toolCalls)
    (h : (converse toString backend tools turns messages toolCalls).outcome = .ok response) :
    ∃ last reply, Concluded backend (converse toString backend tools turns messages toolCalls)
      response last reply := by
  induction turns generalizing messages toolCalls with
  | zero => exact absurd h (by simp [converse])
  | succ turns ih =>
      unfold converse at h ⊢
      cases hbackend : backend system messages catalog with
      | error e =>
          rw [hbackend] at h
          exact absurd h (by simp)
      | ok reply =>
          rw [hbackend] at h
          dsimp only at h ⊢
          by_cases huses : (toolUses reply.content).isEmpty
          · rw [if_pos huses] at h ⊢
            obtain rfl := Except.ok.inj h
            have hnone := List.isEmpty_iff.mp huses
            refine ⟨messages, reply, rfl, hbackend, hnone, rfl, ?_⟩
            rw [transcriptCalls_last messages hnone, hcalls]
          · rw [if_neg huses] at h ⊢
            have hnext : transcriptCalls (messages ++ [⟨"assistant", reply.content⟩,
                ⟨"user", results toString tools messages (toolUses reply.content)⟩])
                  = toolCalls ++ (toolUses reply.content).map toolCall := by
              rw [transcriptCalls_turn, hcalls]
            obtain ⟨last, final, hend⟩ := ih hnext h
            refine ⟨last, final, ?_, hend.replied, hend.no_uses, hend.reply_eq, hend.toolCalls_eq⟩
            rw [List.getLast?_cons, hend.shown, Option.getD_some]

/-- Whatever the backend replies and however the tools end, every transcript shown is well
formed, and a conversation that succeeds returns all tool uses of its transcript and the
text of a reply without any. With tools that read the database it is the copilot's. -/
theorem conversation_wellFormed (toString : Json → String) (backend : LlmBackend)
    (tools : ToolOutcome) (userMessage : String) :
    (∀ shown ∈ (conversation toString backend tools userMessage).shown,
        WellFormed userMessage shown)
      ∧ (∀ response, (conversation toString backend tools userMessage).outcome = .ok response →
          ∃ last reply,
            Concluded backend (conversation toString backend tools userMessage) response last reply)
      ∧ ∀ (c : Codec) (db : Database) (scope : TenantScope),
          (conversation toString backend (fun _ _ name input => dispatch c db scope name input)
            userMessage).outcome = runCopilot c toString db backend scope userMessage := by
  refine ⟨?_, ?_, ?_⟩
  · exact converse_wellFormed maxTurns [] (wellFormed_opening userMessage)
  · intro response hok
    exact converse_concluded rfl hok
  · intro c db scope
    exact converse_outcome c db scope maxTurns _ []

end WellFormed

end ElectronixMes.Cloud
