import ElectronixMes.Serde.Json
import ElectronixMes.Text.Segments

/-!
# Redaction of diagnostic payloads (crates/mes-diagnostics/src/redact.rs)

Redaction is an allowlist: an object keeps the entries under `SAFE_KEYS`, at any depth,
and the texts that survive are scrubbed of emails and opaque tokens. What is dropped does
not influence what is kept, and redacting twice is redacting once.
-/

namespace ElectronixMes.Diagnostics

open Serde Text

/-- The keys whose values are structural or diagnostic and safe to ship. -/
def safeKeys : List String :=
  [
   -- service / build identity
   "service", "version", "build", "commit", "os", "arch", "cpu_count", "mem_bytes",
   -- event / log structure
   "level", "target", "event", "kind", "code", "status", "timestamp", "ts", "uptime_secs",
   "elapsed_ms", "count", "seq",
   -- error / crash structure (messages are additionally string-scrubbed)
   "error", "error_type", "message", "panic", "location", "thread", "backtrace_hash", "span",
   "spans", "reason_code"]

/-! ## Scrubbing a text -/

/-- `char::is_whitespace`: the Unicode property `White_Space`. -/
def isWhitespace (c : Char) : Bool :=
  (0x09 ≤ c.toNat && c.toNat ≤ 0x0D) || c.toNat == 0x20 || c.toNat == 0x85 ||
    c.toNat == 0xA0 || c.toNat == 0x1680 || (0x2000 ≤ c.toNat && c.toNat ≤ 0x200A) ||
    c.toNat == 0x2028 || c.toNat == 0x2029 || c.toNat == 0x202F || c.toNat == 0x205F ||
    c.toNat == 0x3000

/-- The first `@` is not at the start and a dot follows it. -/
def looksLikeEmail (w : List Char) : Bool :=
  match w.findIdx? (· == '@') with
  | some i => decide (0 < i) && (w.drop (i + 1)).contains '.'
  | none => false

/-- 24 or more bytes of base64/hex-ish text with a digit in it. -/
def looksLikeToken (w : List Char) : Bool :=
  decide (24 ≤ (String.ofList w).utf8ByteSize) &&
    w.all (fun c => c.isAlphanum || c == '_' || c == '-' || c == '+' || c == '/') &&
    w.any Char.isDigit

/-- One segment of `scrub_string`, without its white space. -/
def scrubWord (w : List Char) : List Char :=
  if looksLikeEmail w || looksLikeToken w then "[redacted]".toList else w

/-- Scrub emails and long opaque tokens embedded in an allowed free text. -/
def scrubString (s : String) : String :=
  String.ofList (rewriteWords isWhitespace scrubWord s.toList)

theorem scrubWord_nil : scrubWord [] = [] := rfl

theorem scrubWord_isWord (w : List Char) (h : IsWord isWhitespace w) :
    IsWord isWhitespace (scrubWord w) := by
  unfold scrubWord
  split
  · have hall : ("[redacted]".toList.all fun c => !isWhitespace c) = true := rfl
    intro c hc
    simpa using List.all_eq_true.mp hall c hc
  · exact h

theorem scrubWord_redacted : scrubWord "[redacted]".toList = "[redacted]".toList := by
  decide

theorem scrubWord_idem (w : List Char) : scrubWord (scrubWord w) = scrubWord w := by
  by_cases h : looksLikeEmail w || looksLikeToken w
  · have hw : scrubWord w = "[redacted]".toList := if_pos h
    rw [hw, scrubWord_redacted]
  · have hw : scrubWord w = w := if_neg h
    rw [hw, hw]

@[simp] theorem scrubString_idem (s : String) :
    scrubString (scrubString s) = scrubString s := by
  unfold scrubString
  rw [String.toList_ofList,
    rewriteWords_idem scrubWord_nil scrubWord_isWord fun w _ => scrubWord_idem w]

/-! ## Redacting a payload -/

mutual

/-- Keep only the allowlisted keys, recursively, and scrub the texts that survive. -/
def redact : Json → Json
  | .obj fields => .obj (redactFields fields)
  | .arr items => .arr (redactItems items)
  | .str s => .str (scrubString s)
  | .null => .null
  | .bool b => .bool b
  | .int n => .int n
  | .float x => .float x

/-- The elements of an array. -/
def redactItems : List Json → List Json
  | [] => []
  | v :: rest => redact v :: redactItems rest

/-- The entries of an object: those under other keys are dropped. -/
def redactFields : List (String × Json) → List (String × Json)
  | [] => []
  | (k, v) :: rest =>
      if safeKeys.contains k then (k, redact v) :: redactFields rest else redactFields rest

end

mutual

/-- The payload with every entry under a non-allowlisted key deleted, at any depth. -/
def strip : Json → Json
  | .obj fields => .obj (stripFields fields)
  | .arr items => .arr (stripItems items)
  | v => v

def stripItems : List Json → List Json
  | [] => []
  | v :: rest => strip v :: stripItems rest

def stripFields : List (String × Json) → List (String × Json)
  | [] => []
  | (k, v) :: rest =>
      if safeKeys.contains k then (k, strip v) :: stripFields rest else stripFields rest

end

mutual

/-- The keys of all objects in a payload, at any depth. -/
def keys : Json → List String
  | .obj fields => fieldKeys fields
  | .arr items => itemKeys items
  | _ => []

def itemKeys : List Json → List String
  | [] => []
  | v :: rest => keys v ++ itemKeys rest

def fieldKeys : List (String × Json) → List String
  | [] => []
  | (k, v) :: rest => k :: keys v ++ fieldKeys rest

end

mutual

/-- Every key of a redacted payload is on the allowlist. -/
theorem keys_redact (v : Json) : ∀ k ∈ keys (redact v), k ∈ safeKeys := by
  cases v with
  | obj fields => exact fieldKeys_redactFields fields
  | arr items => exact itemKeys_redactItems items
  | null | bool | int | float | str =>
      intro k hk
      exact absurd hk List.not_mem_nil

theorem itemKeys_redactItems (items : List Json) :
    ∀ k ∈ itemKeys (redactItems items), k ∈ safeKeys := by
  cases items with
  | nil =>
      intro k hk
      exact absurd hk List.not_mem_nil
  | cons v rest =>
      intro k hk
      rw [redactItems, itemKeys, List.mem_append] at hk
      rcases hk with hk | hk
      · exact keys_redact v k hk
      · exact itemKeys_redactItems rest k hk

theorem fieldKeys_redactFields (fields : List (String × Json)) :
    ∀ k ∈ fieldKeys (redactFields fields), k ∈ safeKeys := by
  match fields with
  | [] =>
      intro k hk
      exact absurd hk List.not_mem_nil
  | (key, v) :: rest =>
      intro k hk
      rw [redactFields] at hk
      by_cases hsafe : safeKeys.contains key
      · rw [if_pos hsafe, fieldKeys, List.cons_append, List.mem_cons, List.mem_append] at hk
        rcases hk with rfl | hk | hk
        · exact List.contains_iff_mem.mp hsafe
        · exact keys_redact v k hk
        · exact fieldKeys_redactFields rest k hk
      · rw [if_neg hsafe] at hk
        exact fieldKeys_redactFields rest k hk

end

mutual

/-- What is deleted does not influence what is kept. -/
theorem redact_strip (v : Json) : redact (strip v) = redact v := by
  cases v with
  | obj fields => rw [strip, redact, redact, redactFields_stripFields fields]
  | arr items => rw [strip, redact, redact, redactItems_stripItems items]
  | null | bool | int | float | str => rfl

theorem redactItems_stripItems (items : List Json) :
    redactItems (stripItems items) = redactItems items := by
  cases items with
  | nil => rfl
  | cons v rest =>
      rw [stripItems, redactItems, redactItems, redact_strip v, redactItems_stripItems rest]

theorem redactFields_stripFields (fields : List (String × Json)) :
    redactFields (stripFields fields) = redactFields fields := by
  match fields with
  | [] => rfl
  | (k, v) :: rest =>
      rw [stripFields, redactFields]
      by_cases hsafe : safeKeys.contains k
      · rw [if_pos hsafe, if_pos hsafe, redactFields, if_pos hsafe, redact_strip v,
          redactFields_stripFields rest]
      · rw [if_neg hsafe, if_neg hsafe, redactFields_stripFields rest]

end

mutual

/-- Redacting again changes nothing. -/
theorem redact_redact (v : Json) : redact (redact v) = redact v := by
  cases v with
  | obj fields => rw [redact, redact, redactFields_redactFields fields]
  | arr items => rw [redact, redact, redactItems_redactItems items]
  | str s => rw [redact, redact, scrubString_idem]
  | null | bool | int | float => rfl

theorem redactItems_redactItems (items : List Json) :
    redactItems (redactItems items) = redactItems items := by
  cases items with
  | nil => rfl
  | cons v rest =>
      rw [redactItems, redactItems, redact_redact v, redactItems_redactItems rest]

theorem redactFields_redactFields (fields : List (String × Json)) :
    redactFields (redactFields fields) = redactFields fields := by
  match fields with
  | [] => rfl
  | (k, v) :: rest =>
      rw [redactFields]
      by_cases hsafe : safeKeys.contains k
      · rw [if_pos hsafe, redactFields, if_pos hsafe, redact_redact v,
          redactFields_redactFields rest]
      · rw [if_neg hsafe, redactFields_redactFields rest]

end

end ElectronixMes.Diagnostics
