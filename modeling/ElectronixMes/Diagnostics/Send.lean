import ElectronixMes.Diagnostics.Redact

/-!
# The buffer and the send path of diagnostics (crates/mes-diagnostics/src/{lib,buffer,manual}.rs)

A bundle leaves the box through `sendDiagnostics` only, redacted and when the customer has
opted in. Recent events wait in a bounded ring that redacts them on the way in.
-/

namespace ElectronixMes.Diagnostics

open Serde

/-- Per-customer shipping configuration. -/
structure ShipConfig where
  enabled : Bool
  repo : String
  token : String

inductive DiagnosticsError where
  | failed (text : String)
  | ship (text : String)

/-- What a send attempt did. -/
inductive SendOutcome where
  /-- Shipping is disabled for this customer: nothing left the box. -/
  | skipped
  /-- The redacted bundle was shipped. -/
  | shipped
  deriving DecidableEq

/-- The title and the body a shipper is handed. -/
structure Bundle where
  title : String
  body : String
  deriving DecidableEq

section Send

-- The text of a JSON value and the destination belong to libraries and to the network.
variable (toStringPretty : Json → Option String) (ship : Bundle → Except DiagnosticsError Unit)

/-- A text member of the payload, or the default when it is absent or no text. -/
def textOr (payload : Json) (key default : String) : String :=
  ((payload.get? key).bind Json.asString).getD default

/-- Title and body of a payload that is already redacted. -/
def bundle (redacted : Json) : Bundle where
  title := "[diagnostics] " ++ textOr redacted "service" "mes" ++ ": " ++
    textOr redacted "event" "diagnostics"
  body := "```json\n" ++ (toStringPretty redacted).getD "" ++ "\n```"

/-- The single path a diagnostic bundle takes off the box: what the shipper was handed,
and the result. -/
def sendDiagnostics (config : ShipConfig) (payload : Json) :
    List Bundle × Except DiagnosticsError SendOutcome :=
  if !config.enabled then ([], .ok .skipped)
  else
    let out := bundle toStringPretty (redact payload)
    match ship out with
    | .error e => ([out], .error e)
    | .ok _ => ([out], .ok .shipped)

variable {config : ShipConfig}

theorem sendDiagnostics_disabled (h : config.enabled = false) (payload : Json) :
    sendDiagnostics toStringPretty ship config payload = ([], .ok .skipped) := by
  rw [sendDiagnostics, if_pos (by simp [h])]

theorem sendDiagnostics_enabled (h : config.enabled = true) (payload : Json) :
    (sendDiagnostics toStringPretty ship config payload).1
      = [bundle toStringPretty (redact payload)] := by
  rw [sendDiagnostics, if_neg (by simp [h])]
  dsimp only
  cases ship (bundle toStringPretty (redact payload)) <;> rfl

/-- The send path sees the payload through its redaction only. -/
theorem sendDiagnostics_congr {v w : Json} (h : redact v = redact w) :
    sendDiagnostics toStringPretty ship config v
      = sendDiagnostics toStringPretty ship config w := by
  rw [sendDiagnostics, sendDiagnostics, h]

end Send

/-- A bounded ring of recent events. -/
structure DiagBuffer where
  cap : Nat
  events : List Json

namespace DiagBuffer

def new (cap : Nat) : DiagBuffer := ⟨max cap 1, []⟩

/-- Push an event, redacting it first; the oldest is evicted past capacity. -/
def push (b : DiagBuffer) (event : Json) : DiagBuffer :=
  let kept := if b.events.length = b.cap then b.events.tail else b.events
  { b with events := kept ++ [redact event] }

/-- The recent events, oldest first. -/
def snapshot (b : DiagBuffer) : List Json := b.events

/-- All events of the buffer are redacted already. -/
def Redacted (b : DiagBuffer) : Prop := ∀ e ∈ b.events, redact e = e

theorem redacted_new (cap : Nat) : (new cap).Redacted := by
  intro e he
  exact absurd he List.not_mem_nil

theorem Redacted.push {b : DiagBuffer} (h : b.Redacted) (event : Json) :
    (b.push event).Redacted := by
  intro e he
  rcases List.mem_append.mp he with he | he
  · apply h
    split at he
    · exact List.mem_of_mem_tail he
    · exact he
  · rw [List.mem_singleton.mp he, redact_redact]

/-- Every buffer a program can build holds redacted events only. -/
theorem redacted_pushes (cap : Nat) (events : List Json) :
    (events.foldl DiagBuffer.push (new cap)).Redacted := by
  have hgeneral : ∀ b : DiagBuffer, b.Redacted → (events.foldl DiagBuffer.push b).Redacted := by
    induction events with
    | nil =>
        intro b hb
        exact hb
    | cons e rest ih =>
        intro b hb
        exact ih (b.push e) (hb.push e)
  exact hgeneral (new cap) (redacted_new cap)

end DiagBuffer

/-- The supervisor's report: a note and a snapshot of the buffer (`manual::report`). The
map keeps its keys in order. -/
def report (service version note : String) (recent : List Json) : Json :=
  .obj [("event", .str "manual"), ("message", .str note), ("service", .str service),
    ("spans", .arr recent), ("version", .str version)]

theorem redactItems_of_redacted {items : List Json} (h : ∀ e ∈ items, redact e = e) :
    redactItems items = items := by
  induction items with
  | nil => rfl
  | cons v rest ih =>
      rw [redactItems, h v List.mem_cons_self, ih fun e he => h e (List.mem_cons_of_mem v he)]

/-- A report of redacted events carries them through the redaction as they are. -/
theorem redact_report {recent : List Json} (h : ∀ e ∈ recent, redact e = e)
    (service version note : String) :
    redact (report service version note recent)
      = report (scrubString service) (scrubString version) (scrubString note) recent := by
  have hevent : scrubString "manual" = "manual" := by decide
  simp only [report, redact, redactFields, redactItems_of_redacted h, hevent]
  rfl

/-- Redaction is a noninterfering allowlist: every key it leaves is safe, what it drops
reaches neither its result nor what is shipped, and what it has redacted once, in the
buffer, passes the send path as it is. -/
theorem redact_noninterfering (toStringPretty : Json → Option String)
    (ship : Bundle → Except DiagnosticsError Unit) (config : ShipConfig) :
    (∀ v, ∀ k ∈ keys (redact v), k ∈ safeKeys)
      ∧ (∀ v w, strip v = strip w →
          redact v = redact w
            ∧ sendDiagnostics toStringPretty ship config v
              = sendDiagnostics toStringPretty ship config w)
      ∧ (config.enabled = false → ∀ v,
          sendDiagnostics toStringPretty ship config v = ([], .ok .skipped))
      ∧ (config.enabled = true → ∀ v,
          (sendDiagnostics toStringPretty ship config v).1
            = [bundle toStringPretty (redact v)])
      ∧ (∀ v, redact (redact v) = redact v)
      ∧ ∀ (cap : Nat) (events : List Json),
          let recent := (events.foldl DiagBuffer.push (DiagBuffer.new cap)).snapshot
          (∀ e ∈ recent, redact e = e
            ∧ (config.enabled = true →
                (sendDiagnostics toStringPretty ship config e).1 = [bundle toStringPretty e]))
            ∧ ∀ service version note,
                redact (report service version note recent)
                  = report (scrubString service) (scrubString version) (scrubString note)
                      recent := by
  refine ⟨keys_redact, ?_, ?_, ?_, redact_redact, ?_⟩
  · intro v w hvw
    have hredact : redact v = redact w := by
      rw [← redact_strip v, hvw, redact_strip w]
    exact ⟨hredact, sendDiagnostics_congr toStringPretty ship hredact⟩
  · intro hoff v
    exact sendDiagnostics_disabled toStringPretty ship hoff v
  · intro hon v
    exact sendDiagnostics_enabled toStringPretty ship hon v
  · intro cap events recent
    have hrecent : ∀ e ∈ recent, redact e = e := DiagBuffer.redacted_pushes cap events
    refine ⟨fun e he => ⟨hrecent e he, fun hon => ?_⟩, redact_report hrecent⟩
    rw [sendDiagnostics_enabled toStringPretty ship hon, hrecent e he]

/-- Two payloads that differ in a part number under an allowlisted key. -/
theorem redact_noninterfering_partNumber :
    let payload := fun part : String =>
      Json.obj [("error", .obj [("part_number", .str part), ("code", .int 7)])]
    strip (payload "PN-1") = strip (payload "PN-2")
      ∧ sendDiagnostics (fun _ => some "text") (fun _ => .ok ()) ⟨true, "repo", "t"⟩
          (payload "PN-1")
        = sendDiagnostics (fun _ => some "text") (fun _ => .ok ()) ⟨true, "repo", "t"⟩
          (payload "PN-2") := by
  have hstrip : strip (Json.obj [("error", .obj [("part_number", .str "PN-1"),
      ("code", .int 7)])])
      = strip (Json.obj [("error", .obj [("part_number", .str "PN-2"), ("code", .int 7)])]) :=
    rfl
  refine ⟨hstrip, ?_⟩
  exact ((redact_noninterfering (fun _ => some "text") (fun _ => .ok ())
    ⟨true, "repo", "t"⟩).2.1 _ _ hstrip).2

end ElectronixMes.Diagnostics
