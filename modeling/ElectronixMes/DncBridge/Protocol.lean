import ElectronixMes.DncBridge.Client
import ElectronixMes.Diagnostics.Redact
import ElectronixMes.Serde.Tagged
import ElectronixMes.Serde.Text

/-!
# The lines of the daemon's protocol (crates/mes-dnc-bridge/src/protocol.rs)

Commands and events are written as one JSON object a line, the variant under a tag. Readers
take the members in any order and pass over members they do not know; a member they know may
stand once only. They also take an array of the tag and the fields in their order.
-/

namespace ElectronixMes.DncBridge

open Serde Text

/-! ## Commands and events -/

/-- The members of a command's object; a machine that is not given is left out. -/
def DncCommand.members : DncCommand → List (String × Json)
  | sendProgram program machine =>
      [("cmd", .str "send_program"), ("program", .str program)] ++
        (machine.map fun m => ("machine", Json.str m)).toList

def DncCommand.fromJson (v : Json) : Option DncCommand :=
  match tagged "cmd" v with
  | some ("send_program", body) => do
      let program ← body.required "program" 0 Json.asString
      let machine ← body.optional "machine" 1 Json.asString
      body.ended 2 (.sendProgram program machine)
  | _ => none

def DncEvent.fromJson (v : Json) : Option DncEvent :=
  match tagged "event" v with
  | some ("transfer_completed", body) => do
      let reference ← body.required "reference" 0 Json.asString
      body.ended 1 (.transferCompleted reference)
  | some ("transfer_failed", body) => do
      let reference ← body.required "reference" 0 Json.asString
      let error ← body.defaulted "error" 1 Json.asString ""
      body.ended 2 (.transferFailed reference error)
  | some ("program_received", body) => do
      let program ← body.required "program" 0 Json.asString
      let contentRef ← body.defaulted "content_ref" 1 (Json.asOption Json.asString) none
      body.ended 2 (.programReceived program contentRef)
  | _ => none

section Wire

variable (ft : FloatText)

/-- Serialize a command to a single line, newline included. -/
def wireCommand (cmd : DncCommand) : List Char := render ft (.obj cmd.members) ++ ['\n']

/-- Parse one line into a command, as the other end of the socket does. -/
def parseCommand (line : List Char) : Option DncCommand :=
  (parse ft (trim Diagnostics.isWhitespace line)).bind DncCommand.fromJson

/-- Parse one line into an event. -/
def parseEvent (line : List Char) : Option DncEvent :=
  (parse ft (trim Diagnostics.isWhitespace line)).bind DncEvent.fromJson

def isNewline (c : Char) : Bool := c = '\n'

/-- The commands in what has come over a socket so far: a line counts once it is ended. -/
def readCommands (received : List Char) : List (Option DncCommand) :=
  (ended isNewline received).map (parseCommand ft)

end Wire

/-! ## Events -/

/-- The members that the reader of an event's variant knows. -/
def DncEvent.keys : DncEvent → List String
  | transferCompleted _ => ["event", "reference"]
  | transferFailed _ _ => ["event", "reference", "error"]
  | programReceived _ _ => ["event", "program", "content_ref"]

/-- The members that say an event, in the order of its fields: a default may be left out. -/
def DncEvent.spellings : DncEvent → List (List (String × Json))
  | transferCompleted reference =>
      [[("event", .str "transfer_completed"), ("reference", .str reference)]]
  | transferFailed reference error =>
      let shortest := [("event", .str "transfer_failed"), ("reference", .str reference)]
      [shortest ++ [("error", .str error)]] ++ if error = "" then [shortest] else []
  | programReceived program contentRef =>
      let shortest := [("event", .str "program_received"), ("program", .str program)]
      [shortest ++ [("content_ref", optStringToJson contentRef)]] ++
        if contentRef = none then [shortest] else []

variable {ft : FloatText}

theorem parse_trim_render {depth : ℕ} {fields : List (String × Json)}
    (hfits : (Json.obj fields).Fits ft depth) (hdepth : depth < recursionLimit)
    {pad pad' : List Char} (hpad : ∀ c ∈ pad, Diagnostics.isWhitespace c = true)
    (hpad' : ∀ c ∈ pad', Diagnostics.isWhitespace c = true) :
    parse ft (trim Diagnostics.isWhitespace (pad ++ render ft (.obj fields) ++ pad')) =
      some (.obj fields) := by
  obtain ⟨body, hbody⟩ := render_obj ft fields
  have htrim : trim Diagnostics.isWhitespace (pad ++ render ft (.obj fields) ++ pad') =
      render ft (.obj fields) := by
    rw [hbody]
    refine trim_append (List.cons_ne_nil _ _) hpad hpad' ?_ ?_
    · intro c hc
      obtain rfl : '{' = c := by simpa using hc
      decide
    · intro c hc
      obtain rfl : '}' = c := by
        rw [← List.cons_append, List.getLast?_concat] at hc
        simpa using hc
      decide
  rw [htrim]
  have hparse := @parse_render ft depth _ hfits hdepth [] [] (by simp) (by simp)
  rwa [List.nil_append, List.append_nil] at hparse

namespace DncEvent

variable {fields : List (String × Json)} {items : List Json} {body : Body}

/-- A value that says an event: an object whose known members are a spelling of it, in any order
and next to any others, or an array of the values of a spelling. -/
def SaidBy (e : DncEvent) : Json → Prop
  | .obj fields => ∃ ms ∈ e.spellings, (fields.filter fun p => p.1 ∈ e.keys).Perm ms
  | .arr items => ∃ ms ∈ e.spellings, items = ms.map Prod.snd
  | _ => False

/-- The tag of an event. -/
def tag : DncEvent → String
  | transferCompleted _ => "transfer_completed"
  | transferFailed _ _ => "transfer_failed"
  | programReceived _ _ => "program_received"

/-- What the reader requires of the fields for an event. -/
def Says (body : Body) : DncEvent → Prop
  | transferCompleted reference =>
      body.found "reference" 0 = [.str reference] ∧ (body.ended 1 ()).isSome
  | transferFailed reference error =>
      body.found "reference" 0 = [.str reference] ∧
        (body.found "error" 1 = [.str error] ∨ body.found "error" 1 = [] ∧ error = "") ∧
        (body.ended 2 ()).isSome
  | programReceived program contentRef =>
      body.found "program" 0 = [.str program] ∧
        (body.found "content_ref" 1 = [optStringToJson contentRef] ∨
          body.found "content_ref" 1 = [] ∧ contentRef = none) ∧
        (body.ended 2 ()).isSome

theorem ended_eq_some {n : ℕ} {e e' : DncEvent} :
    body.ended n e' = some e ↔ e' = e ∧ (body.ended n ()).isSome := by
  cases body with
  | members fields => simp [Body.ended]
  | elements items => by_cases h : items.length ≤ n <;> simp [Body.ended, h]

theorem fromJson_eq_some {v : Json} {e : DncEvent} :
    fromJson v = some e ↔ ∃ body, tagged "event" v = some (e.tag, body) ∧ Says body e := by
  have hstring : ∀ (v : Json) (s : String), v.asString = some s ↔ v = .str s :=
    fun _ _ => asString_eq_some
  have hoption : ∀ (v : Json) (o : Option String),
      Json.asOption Json.asString v = some o ↔ v = optStringToJson o := fun _ _ => asOption_asString
  constructor
  · intro h
    unfold fromJson at h
    split at h
    · rename_i body htag
      simp only [Option.bind_eq_bind, Option.bind_eq_some_iff, ended_eq_some] at h
      obtain ⟨reference, hreference, rfl, hended⟩ := h
      exact ⟨body, htag, (Body.required_eq_some hstring).mp hreference, hended⟩
    · rename_i body htag
      simp only [Option.bind_eq_bind, Option.bind_eq_some_iff, ended_eq_some] at h
      obtain ⟨reference, hreference, error, herror, rfl, hended⟩ := h
      exact ⟨body, htag, (Body.required_eq_some hstring).mp hreference,
        (Body.defaulted_eq_some hstring).mp herror, hended⟩
    · rename_i body htag
      simp only [Option.bind_eq_bind, Option.bind_eq_some_iff, ended_eq_some] at h
      obtain ⟨program, hprogram, contentRef, hcontent, rfl, hended⟩ := h
      exact ⟨body, htag, (Body.required_eq_some hstring).mp hprogram,
        (Body.defaulted_eq_some hoption).mp hcontent, hended⟩
    · cases h
  · rintro ⟨body, htag, hsays⟩
    unfold fromJson
    rw [htag]
    cases e with
    | transferCompleted reference =>
        obtain ⟨hreference, hended⟩ := hsays
        simp only [tag, Option.bind_eq_bind, Option.bind_eq_some_iff, ended_eq_some]
        exact ⟨reference, (Body.required_eq_some hstring).mpr hreference, rfl, hended⟩
    | transferFailed reference error =>
        obtain ⟨hreference, herror, hended⟩ := hsays
        simp only [tag, Option.bind_eq_bind, Option.bind_eq_some_iff, ended_eq_some]
        exact ⟨reference, (Body.required_eq_some hstring).mpr hreference, error,
          (Body.defaulted_eq_some hstring).mpr herror, rfl, hended⟩
    | programReceived program contentRef =>
        obtain ⟨hprogram, hcontent, hended⟩ := hsays
        simp only [tag, Option.bind_eq_bind, Option.bind_eq_some_iff, ended_eq_some]
        exact ⟨program, (Body.required_eq_some hstring).mpr hprogram, contentRef,
          (Body.defaulted_eq_some hoption).mpr hcontent, rfl, hended⟩

/-- The reader takes exactly the spellings of an event. -/
theorem says_members {e : DncEvent} :
    under fields "event" = [.str e.tag] ∧ Says (.members fields) e ↔
      ∃ ms ∈ e.spellings, ∀ k ∈ e.keys, under fields k = under ms k := by
  cases e with
  | transferCompleted reference =>
      simp [Says, tag, spellings, keys, under, Body.found, Body.ended]
  | transferFailed reference error =>
      by_cases herror : error = ""
      · simp [Says, tag, spellings, keys, under, Body.found, Body.ended, herror, and_or_left]
      · simp [Says, tag, spellings, keys, under, Body.found, Body.ended, herror]
  | programReceived program contentRef =>
      by_cases hcontent : contentRef = none
      · simp [Says, tag, spellings, keys, under, Body.found, Body.ended, hcontent, and_or_left]
      · simp [Says, tag, spellings, keys, under, Body.found, Body.ended, hcontent]

/-- One element or none besides the first. -/
theorem elements_iff {v w : Json} {p : Prop} :
    (Body.elements items).found "" 0 = [v] ∧
        ((Body.elements items).found "" 1 = [w] ∨ (Body.elements items).found "" 1 = [] ∧ p) ∧
        ((Body.elements items).ended 2 ()).isSome ↔
      items = [v, w] ∨ p ∧ items = [v] := by
  rcases items with _ | ⟨a, _ | ⟨b, _ | ⟨c, rest⟩⟩⟩
  · simp [Body.found]
  · simp [Body.found, Body.ended, and_comm]
  · simp [Body.found, Body.ended]
  · simp [Body.found, Body.ended]

theorem says_elements {e : DncEvent} :
    (∃ rest, items = .str e.tag :: rest ∧ Says (.elements rest) e) ↔
      ∃ ms ∈ e.spellings, items = ms.map Prod.snd := by
  cases e with
  | transferCompleted reference =>
      have hone : ∀ rest : List Json, Says (.elements rest) (transferCompleted reference) ↔
          rest = [.str reference] := by
        intro rest
        rcases rest with _ | ⟨a, _ | ⟨b, rest⟩⟩
        · simp [Says, Body.found]
        · simp [Says, Body.found, Body.ended]
        · simp [Says, Body.found, Body.ended]
      simp [hone, tag, spellings]
  | transferFailed reference error =>
      have htwo : ∀ rest : List Json, Says (.elements rest) (transferFailed reference error) ↔
          rest = [.str reference, .str error] ∨ error = "" ∧ rest = [.str reference] :=
        fun rest => elements_iff
      simp only [htwo, tag, spellings]
      by_cases herror : error = ""
      · simp [herror, and_or_left, exists_or]
      · simp [herror]
  | programReceived program contentRef =>
      have htwo : ∀ rest : List Json, Says (.elements rest) (programReceived program contentRef) ↔
          rest = [.str program, optStringToJson contentRef] ∨
            contentRef = none ∧ rest = [.str program] :=
        fun rest => elements_iff
      simp only [htwo, tag, spellings]
      by_cases hcontent : contentRef = none
      · simp [hcontent, and_or_left, exists_or]
      · simp [hcontent]

theorem nodup_keys (e : DncEvent) : e.keys.Nodup := by
  cases e <;> simp [keys]

/-- A spelling has known keys only, each of them once at most. -/
theorem spellings_known {e : DncEvent} {ms : List (String × Json)} (h : ms ∈ e.spellings) :
    (∀ p ∈ ms, p.1 ∈ e.keys) ∧ ∀ k ∈ e.keys, (under ms k).length ≤ 1 := by
  cases e with
  | transferCompleted reference =>
      obtain rfl : ms = _ := by simpa [spellings] using h
      simp [keys, under]
  | transferFailed reference error =>
      by_cases herror : error = ""
      · rcases (by simpa [spellings, herror] using h : ms = _ ∨ ms = _) with rfl | rfl <;>
          simp [keys, under]
      · obtain rfl : ms = _ := by simpa [spellings, herror] using h
        simp [keys, under]
  | programReceived program contentRef =>
      by_cases hcontent : contentRef = none
      · rcases (by simpa [spellings, hcontent] using h : ms = _ ∨ ms = _) with rfl | rfl <;>
          simp [keys, under]
      · obtain rfl : ms = _ := by simpa [spellings, hcontent] using h
        simp [keys, under]

end DncEvent

/-- A value is read as an event exactly when it says the event. -/
theorem DncEvent.fromJson_iff_saidBy {v : Json} {e : DncEvent} :
    fromJson v = some e ↔ e.SaidBy v := by
  rw [fromJson_eq_some]
  cases v with
  | obj fields =>
      simp only [tagged_obj, and_assoc, exists_and_left, exists_eq_left]
      rw [says_members]
      apply exists_congr
      intro ms
      apply and_congr_right
      intro hms
      obtain ⟨hknown, hone⟩ := spellings_known hms
      exact (filter_perm_iff e.nodup_keys hknown hone).symm
  | arr items =>
      simp only [tagged_arr]
      rw [SaidBy, ← says_elements]
      constructor
      · rintro ⟨_, ⟨rest, hitems, rfl⟩, hsays⟩
        exact ⟨rest, hitems, hsays⟩
      · rintro ⟨rest, hitems, hsays⟩
        exact ⟨.elements rest, ⟨rest, hitems, rfl⟩, hsays⟩
  | null | bool | int | float | str => simp [tagged, SaidBy]

/-- A line is an event exactly when it is, up to white space around it, the text of a value that
says the event. -/
theorem parseEvent_eq_some (line : List Char) (e : DncEvent) :
    parseEvent ft line = some e ↔
      ∃ v, parse ft (trim Diagnostics.isWhitespace line) = some v ∧ e.SaidBy v := by
  rw [parseEvent, Option.bind_eq_some_iff]
  exact exists_congr fun v => and_congr_right fun _ => DncEvent.fromJson_iff_saidBy

/-- Neither the tag nor the reference needs to come first, and what else the daemon says about
the transfer, the word `error` of a completed one included, is passed over. -/
theorem parseEvent_reordered :
    parseEvent noFloats
      (['\t'] ++ render noFloats
        (.obj [("reference", .str "tcp-0"), ("error", .null), ("event", .str "transfer_completed"),
          ("bytes", .arr [.int 12, .int (-3)])]) ++ ['\r', '\n']) =
      some (.transferCompleted "tcp-0") := by
  refine (parseEvent_eq_some _ _).mpr ⟨_, @parse_trim_render _ 2 _ ?_ (by decide) _ _ ?_ ?_, ?_⟩
  · simp [Json.Carried, Fits64]
  · exact List.all_eq_true.mp (by decide)
  · exact List.all_eq_true.mp (by decide)
  · refine ⟨_, List.mem_singleton_self _, ?_⟩
    simpa [DncEvent.keys] using List.Perm.swap _ _ _

/-- The tag and the reference alone are a failure without a text. -/
example :
    parseEvent noFloats "[\"transfer_failed\", \"tcp-0\"]".toList =
      some (.transferFailed "tcp-0" "") := by
  decide +kernel

/-! ## Commands -/

theorem fromJson_members (cmd : DncCommand) :
    DncCommand.fromJson (.obj cmd.members) = some cmd := by
  obtain ⟨program, machine⟩ := cmd
  cases machine <;>
    simp [DncCommand.members, DncCommand.fromJson, tagged, Body.required, Body.optional,
      Body.defaulted, Body.found, Body.ended, under, Json.asString, Json.asOption]

theorem fits_members (cmd : DncCommand) : (Json.obj cmd.members).Fits ft 1 := by
  obtain ⟨program, machine⟩ := cmd
  cases machine <;> simp [DncCommand.members, Json.Carried]

/-- A command is read back from its line. -/
theorem parseCommand_wireCommand (cmd : DncCommand) :
    parseCommand ft (wireCommand ft cmd) = some cmd := by
  have hparse := @parse_trim_render ft 1 _ (fits_members cmd) (by decide) [] ['\n'] (by simp)
    (List.all_eq_true.mp (by decide))
  rw [List.nil_append] at hparse
  rw [parseCommand, wireCommand, hparse, Option.bind_some, fromJson_members]

/-- Whatever characters the names of programs and machines have, a stream of commands that is
cut anywhere holds the first of them, as many as lines were ended, and no other command. -/
theorem readCommands_take (cmds : List DncCommand) (n : ℕ) :
    readCommands ft ((cmds.flatMap (wireCommand ft)).take n) =
      (cmds.map some).take (((cmds.flatMap (wireCommand ft)).take n).countP isNewline) := by
  have hline : ∀ l ∈ cmds.map (fun cmd => render ft (.obj cmd.members)), IsWord isNewline l := by
    intro l hl
    obtain ⟨cmd, -, rfl⟩ := List.mem_map.mp hl
    intro c hc
    simp only [isNewline, decide_eq_false_iff_not]
    rintro rfl
    exact newline_notMem_render (fits_members cmd).legible hc
  have hstream : cmds.flatMap (wireCommand ft) =
      (cmds.map fun cmd => render ft (.obj cmd.members)).flatMap (· ++ ['\n']) := by
    rw [List.flatMap_map]
    rfl
  have hread : (cmds.map (wireCommand ft)).map (parseCommand ft) = cmds.map some := by
    rw [List.map_map]
    exact List.map_congr_left fun cmd _ => parseCommand_wireCommand cmd
  rw [hstream, readCommands, ended_take hline rfl, List.map_take, List.map_map, List.map_map,
    ← hread, List.map_map]
  rfl

end ElectronixMes.DncBridge
