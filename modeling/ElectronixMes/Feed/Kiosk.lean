import ElectronixMes.Feed.Clients
import Mathlib.Data.List.DropRight

/-!
# The kiosk (apps/desktop/src/kiosk/Kiosk.tsx)

A kiosk turns the events it reads into a banner, which asks for a program to be fetched, and
into the bubbles of its chat panel. It asks the edge nothing, so what it shows rests on the
feed alone.
-/

namespace ElectronixMes.Feed

open Db Edge Relational Serde Transition

structure Banner where
  text : String
  transferId : String
  deriving DecidableEq

/-- A quick action of a bubble. -/
structure Action where
  label : String
  transferId : String
  deriving DecidableEq

structure Bubble where
  id : String
  kind : String
  text : String
  action : Option Action
  deriving DecidableEq

structure Kiosk where
  banner : Option Banner
  bubbles : List Bubble

namespace Kiosk

/-- A kiosk that has just been opened. -/
def new : Kiosk := ⟨none, []⟩

/-- Of the bubbles before it, a bubble leaves the newest 30. -/
def push (b : Bubble) (k : Kiosk) : Kiosk := { k with bubbles := k.bubbles.rtake 30 ++ [b] }

def onEvent (k : Kiosk) : WsEvent → Kiosk
  | .dncTransferScheduled transferId _ programIdentifier _ =>
      push ⟨transferId, "job_ready",
          "Program " ++ programIdentifier ++ " is staged. Tap to fetch it to the machine.",
          some ⟨"Fetch program", transferId⟩⟩
        { k with banner := some ⟨"Job ready — fetch program " ++ programIdentifier, transferId⟩ }
  | .dncTransferCompleted transferId =>
      push ⟨"c-" ++ transferId, "job_cleared", "Program transferred to the machine. ✓", none⟩
        { k with banner := k.banner.filter fun b => b.transferId ≠ transferId }
  | .programRevisionDrafted revisionId _ =>
      push ⟨revisionId, "revision",
        "You edited a program — saved as a draft for supervisor review.", none⟩ k
  | .ncrRaised ncrId ncrNo _ =>
      push ⟨ncrId, "ncr", "Quality hold raised: " ++ ncrNo ++ ".", none⟩ k
  | _ => k

end Kiosk

/-! ## The banner -/

/-- The banner an event puts up. -/
def putsUp : WsEvent → Option Banner
  | .dncTransferScheduled transferId _ programIdentifier _ =>
      some ⟨"Job ready — fetch program " ++ programIdentifier, transferId⟩
  | _ => none

/-- The banner of the last transfer that was scheduled. -/
def lastScheduled (events : List WsEvent) : Option Banner := (events.filterMap putsUp).getLast?

/-- What an event does to the banner. -/
def nextBanner (banner : Option Banner) : WsEvent → Option Banner
  | .dncTransferScheduled transferId _ programIdentifier _ =>
      some ⟨"Job ready — fetch program " ++ programIdentifier, transferId⟩
  | .dncTransferCompleted transferId => banner.filter fun b => b.transferId ≠ transferId
  | _ => banner

/-- The transfer is stored as completed. -/
def Done (v : View) (b : Banner) : Prop := v.transfers b.transferId = some "completed"

instance (v : View) (b : Banner) : Decidable (Done v b) := inferInstanceAs (Decidable (_ = _))

section Banner

variable {v w : View} {events : List WsEvent}

theorem banner_foldl (events : List WsEvent) (k : Kiosk) :
    (events.foldl Kiosk.onEvent k).banner = events.foldl nextBanner k.banner := by
  induction events generalizing k with
  | nil => rfl
  | cons e rest ih =>
      rw [List.foldl_cons, List.foldl_cons, ih]
      cases e <;> rfl

theorem resets_nextBanner {e : WsEvent} (h : (putsUp e).isSome) : Resets nextBanner e := by
  intro banner banner'
  cases e with
  | dncTransferScheduled => rfl
  | dncTransferCompleted | workOrderStatusChanged | operationStarted | operationCompleted
  | countRecorded | downtimeClassified | programRevisionDrafted | oeeSnapshot | ncrRaised => cases h

theorem lastScheduled_concat (events : List WsEvent) (e : WsEvent) :
    lastScheduled (events ++ [e]) = (putsUp e <|> lastScheduled events) := by
  rw [lastScheduled, List.filterMap_append]
  cases h : putsUp e with
  | none => simp [h, lastScheduled]
  | some b => simp [h]

/-- An event that puts up no banner and says of no transfer that it is completed. -/
theorem lastScheduled_quiet (h : ∀ e ∈ events, Elsewhere e) (before : List WsEvent) :
    lastScheduled (before ++ events) = lastScheduled before := by
  have hnone : events.filterMap putsUp = [] := by
    rw [List.filterMap_eq_nil_iff]
    intro e he
    have helse := h e he
    cases e with
    | downtimeClassified | programRevisionDrafted | oeeSnapshot | ncrRaised => rfl
    | workOrderStatusChanged | operationStarted | operationCompleted | countRecorded
    | dncTransferScheduled | dncTransferCompleted => exact helse.elim
  rw [lastScheduled, List.filterMap_append, hnone, List.append_nil, lastScheduled]

theorem nextBanner_quiet (h : ∀ e ∈ events, Elsewhere e) (banner : Option Banner) :
    events.foldl nextBanner banner = banner := by
  induction events with
  | nil => rfl
  | cons e rest ih =>
      have helse := h e List.mem_cons_self
      have hsame : nextBanner banner e = banner := by
        cases e with
        | downtimeClassified | programRevisionDrafted | oeeSnapshot | ncrRaised => rfl
        | workOrderStatusChanged | operationStarted | operationCompleted | countRecorded
        | dncTransferScheduled | dncTransferCompleted => exact helse.elim
      rw [List.foldl_cons, hsame]
      exact ih fun e he => h e (List.mem_cons_of_mem _ he)

/-- The banner to show for a view, if `banner` was put up last. -/
def current (v : View) (banner : Option Banner) : Option Banner :=
  banner.filter fun b => ¬ Done v b

theorem current_congr {banner : Option Banner} (h : ∀ b ∈ banner, (Done w b ↔ Done v b)) :
    current w banner = current v banner := by
  cases banner with
  | none => rfl
  | some b => simp [current, Option.filter, h b rfl]

theorem done_update (v : View) (id status : String) (b : Banner) :
    Done { v with transfers := Function.update v.transfers id (some status) } b ↔
      if b.transferId = id then status = "completed" else Done v b := by
  by_cases hid : b.transferId = id <;> simp [Done, hid]

/-- A change leaves the right banner right. -/
theorem Change.banner (h : Change v events w) (before : List WsEvent) :
    events.foldl nextBanner (current v (lastScheduled before)) =
      current w (lastScheduled (before ++ events)) := by
  cases h with
  | elsewhere h => rw [nextBanner_quiet h, lastScheduled_quiet h]
  | created orders operations parents transfers =>
      rw [List.foldl_nil, List.append_nil]
      apply Eq.symm
      apply current_congr
      intro b _
      rw [Done, Done, transfers]
  | moved | started | completed | counted =>
      rw [lastScheduled_concat]
      rfl
  | scheduled h =>
      -- the new transfer is the last one, and it is not completed
      rw [lastScheduled_concat]
      simp [nextBanner, putsUp, current, Option.filter, done_update]
  | @transferred id status h =>
      rw [lastScheduled_concat]
      cases lastScheduled before with
      | none => rfl
      | some b =>
          by_cases hid : b.transferId = id
          · by_cases hdone : Done v b <;>
              simp [nextBanner, putsUp, current, Option.filter, done_update, hid, hdone]
          · by_cases hdone : Done v b <;>
              simp [nextBanner, putsUp, current, Option.filter, done_update, hid, hdone]
  | @failed id status h hopen =>
      rw [List.foldl_nil, List.append_nil]
      apply Eq.symm
      apply current_congr
      intro b _
      rw [done_update]
      split
      · rename_i hid
        have hnot : ¬ Done v b := by
          rw [Done, hid, h, Option.some.injEq]
          exact hopen
        exact iff_of_false (by decide) hnot
      · exact Iff.rfl

theorem Changes.banner (h : Changes v events w) :
    events.foldl nextBanner none = current w (lastScheduled events) := by
  induction h with
  | refl => rfl
  | snoc h change ih => rw [List.foldl_append, ih, change.banner]

end Banner

/-! ## The chat panel -/

/-- The bubble an event adds. -/
def bubbleOf : WsEvent → Option Bubble
  | .dncTransferScheduled transferId _ programIdentifier _ =>
      some ⟨transferId, "job_ready",
        "Program " ++ programIdentifier ++ " is staged. Tap to fetch it to the machine.",
        some ⟨"Fetch program", transferId⟩⟩
  | .dncTransferCompleted transferId =>
      some ⟨"c-" ++ transferId, "job_cleared", "Program transferred to the machine. ✓", none⟩
  | .programRevisionDrafted revisionId _ =>
      some ⟨revisionId, "revision",
        "You edited a program — saved as a draft for supervisor review.", none⟩
  | .ncrRaised ncrId ncrNo _ =>
      some ⟨ncrId, "ncr", "Quality hold raised: " ++ ncrNo ++ ".", none⟩
  | _ => none

section Bubbles

theorem rtake_rtake {α : Type*} (l : List α) {m n : ℕ} (h : m ≤ n) :
    (l.rtake n).rtake m = l.rtake m := by
  rw [List.rtake, List.rtake, List.rtake, List.drop_drop, List.length_drop]
  congr 1
  omega

theorem rtake_of_suffix {α : Type*} {newest l : List α} (h : newest <:+ l) {n : ℕ}
    (hn : n ≤ newest.length) : l.rtake n = newest.rtake n := by
  obtain ⟨front, rfl⟩ := h
  have hlength : (front ++ newest).length - n = front.length + (newest.length - n) := by
    rw [List.length_append]
    omega
  rw [List.rtake, hlength, List.drop_length_add_append, List.rtake]

/-- The panel shows the newest 31 bubbles. -/
theorem bubbles_foldl (events : List WsEvent) :
    (events.foldl Kiosk.onEvent Kiosk.new).bubbles = (events.filterMap bubbleOf).rtake 31 := by
  induction events using List.reverseRecOn with
  | nil => rfl
  | append_singleton events e ih =>
      rw [List.foldl_append, List.foldl_cons, List.foldl_nil, List.filterMap_append]
      have hadded (b : Bubble) :
          (events.foldl Kiosk.onEvent Kiosk.new).bubbles.rtake 30 ++ [b] =
            (events.filterMap bubbleOf ++ [b]).rtake 31 := by
        rw [ih, rtake_rtake _ (by decide), List.rtake_concat_succ]
      cases e with
      | dncTransferScheduled | dncTransferCompleted | programRevisionDrafted | ncrRaised =>
          exact hadded _
      | workOrderStatusChanged | operationStarted | operationCompleted | countRecorded
      | downtimeClassified | oeeSnapshot =>
          rw [List.filterMap_cons_none rfl, List.filterMap_nil, List.append_nil]
          exact ih

end Bubbles

/-! ## What a kiosk shows -/

section Shown

variable {ft : FloatText} {f : Floor} {run : List Move}

theorem onEvent_reread (ft : FloatText) (k : Kiosk) (e : WsEvent) :
    k.onEvent (e.reread ft) = k.onEvent e := by
  cases e <;> rfl

end Shown

end ElectronixMes.Feed
