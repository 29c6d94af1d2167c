import ElectronixMes.Cloud.Sync
import ElectronixMes.Edge.Orders
import ElectronixMes.Transition.Run
import Mathlib.Logic.Function.Basic

/-!
# The sync protocol between one cloud and its plants

The cloud, the database of every plant's edge, and the entries each plant has
pulled. A pulled entry stays available for ever: an edge may apply it at any
later time and any number of times, so lost, delayed and repeated deliveries
and acknowledgements are all runs of this system.

## Implementation notes

A request may carry any plant id, any header and any body. An action whose
call fails leaves what the call leaves.
-/

namespace ElectronixMes.Sync

open Db Cloud Edge ElectronixMes.Core Relational Serde Transition

structure System where
  cloud : Database
  edges : String → Database
  pulled : List (String × SyncEntry)

inductive Action where
  | create (now : Int) (woId entryId plantId : String) (input : RemoteWorkOrderInput)
  | push (now : ℕ → Int) (authorization : Option String) (req : PushRequest)
  | pull (authorization : Option String) (plantId : String) (limit : Option Int)
  | ack (now : Int) (authorization : Option String) (req : AckRequest)
  /-- The edge applies the entry it received as the `i`-th. -/
  | apply (now : Int) (plantTag : Option String) (i : ℕ)
  | transition (now : Int) (plantId id : String) (target : WoStatus)
  | start (now : Int) (plantId opId : String)

/-- The cloud after a remote work order is created. -/
def afterCreate (c : Codec) (db : Database) (now : Int) (woId entryId plantId : String)
    (input : RemoteWorkOrderInput) : Database :=
  match createRemoteWorkOrder c db now woId entryId plantId input.woNumber input.partId
      input.qtyOrdered input.priority with
  | .ok res => res.1
  | .error _ => db

def step (hashToken : String → String) (c : Codec) (sys : System) : Action → System
  | .create now woId entryId plantId input =>
      { sys with cloud := afterCreate c sys.cloud now woId entryId plantId input }
  | .push now authorization req =>
      { sys with cloud := (Cloud.push hashToken c sys.cloud now authorization req).1 }
  | .pull authorization plantId limit =>
      match Cloud.pull hashToken sys.cloud authorization plantId limit with
      | .error _ => sys
      | .ok entries => { sys with pulled := sys.pulled ++ entries.map fun e => (plantId, e) }
  | .ack now authorization req =>
      { sys with cloud := (Cloud.ack hashToken sys.cloud now authorization req).1 }
  | .apply now plantTag i =>
      match sys.pulled[i]? with
      | none => sys
      | some (p, e) =>
          { sys with edges :=
              Function.update sys.edges p (afterApply c (sys.edges p) now e plantTag) }
  | .transition now p id target =>
      { sys with edges :=
          Function.update sys.edges p (transitionWo (sys.edges p) now id target).1 }
  | .start now p opId =>
      { sys with edges := Function.update sys.edges p (startOp (sys.edges p) now opId).1 }

/-- The system a run reaches. -/
def exec (hashToken : String → String) (c : Codec) (sys : System) (run : List Action) : System :=
  run.foldl (step hashToken c) sys

section Outbox

variable {hashToken : String → String} {c : Codec} {sys : System}

/-- The action is an accepted acknowledgement by a plant that names the id. -/
def Acks (hashToken : String → String) (plantId id : String) (sys : System) : Action → Prop
  | .ack _ authorization req =>
      requirePlant hashToken sys.cloud authorization req.plantId = .ok () ∧
        req.plantId = plantId ∧ id ∈ req.ids
  | _ => False

theorem mem_afterCreate {db : Database} {now : Int} {woId entryId plantId : String}
    {input : RemoteWorkOrderInput} {r : OutboxRow} (hr : r ∈ db.outbox) :
    r ∈ (afterCreate c db now woId entryId plantId input).outbox := by
  unfold afterCreate
  split
  · rename_i res hok
    obtain ⟨row, -, -, -, hmem⟩ := createRemoteWorkOrder_outbox hok
    exact (hmem r).mpr (Or.inl hr)
  · exact hr

theorem push_outbox (db : Database) (now : ℕ → Int) (authorization : Option String)
    (req : PushRequest) :
    (Cloud.push hashToken c db now authorization req).1.outbox = db.outbox := by
  have hbatch := applyBatch_outbox c db now req.entries (some req.plantId)
  unfold Cloud.push
  split
  · rfl
  · split
    · rfl
    · split
      · rename_i h
        rw [h] at hbatch
        exact hbatch
      · rename_i h
        rw [h] at hbatch
        exact hbatch

/-- An acknowledgement keeps the rows it does not name and stamps the others. -/
theorem mem_ack_outbox {db : Database} {now : Int} {authorization : Option String}
    {req : AckRequest}
    (hauth : requirePlant hashToken db authorization req.plantId = .ok ()) {r : OutboxRow} :
    r ∈ (Cloud.ack hashToken db now authorization req).1.outbox ↔
      ∃ s ∈ db.outbox, stamp req.ids now s = r := by
  unfold Cloud.ack
  rw [hauth]
  dsimp only
  unfold markSynced
  split
  · rename_i hnil
    simp [hnil, stamp]
  · rw [Table.mem_modify]

/-- Each row of the cloud's outbox stays as it is, unless an accepted
acknowledgement names it, which only stamps it. -/
theorem outbox_step (hashToken : String → String) (c : Codec) {r : OutboxRow}
    (hr : r ∈ sys.cloud.outbox) (a : Action) :
    r ∈ (step hashToken c sys a).cloud.outbox ∨
      ∃ p now, Acks hashToken p r.id sys a ∧
        { r with syncedAt := some now } ∈ (step hashToken c sys a).cloud.outbox := by
  cases a with
  | create now woId entryId plantId input => exact Or.inl (mem_afterCreate hr)
  | push now authorization req =>
      left
      change r ∈ (Cloud.push hashToken c sys.cloud now authorization req).1.outbox
      rw [push_outbox]
      exact hr
  | pull authorization plantId limit =>
      left
      unfold step
      dsimp only
      split <;> exact hr
  | ack now authorization req =>
      change r ∈ (Cloud.ack hashToken sys.cloud now authorization req).1.outbox ∨ ∃ p now', _ ∧
        { r with syncedAt := some now' } ∈
          (Cloud.ack hashToken sys.cloud now authorization req).1.outbox
      cases hauth : requirePlant hashToken sys.cloud authorization req.plantId with
      | error e =>
          left
          unfold Cloud.ack
          rw [hauth]
          exact hr
      | ok u =>
          by_cases hid : r.id ∈ req.ids
          · right
            refine ⟨req.plantId, now, ⟨hauth, rfl, hid⟩, (mem_ack_outbox hauth).mpr ?_⟩
            exact ⟨r, hr, by rw [stamp, if_pos hid]⟩
          · left
            refine (mem_ack_outbox hauth).mpr ?_
            exact ⟨r, hr, by rw [stamp, if_neg hid]⟩
  | apply now plantTag i =>
      left
      unfold step
      dsimp only
      split <;> exact hr
  | transition now p id target => exact Or.inl hr
  | start now p opId => exact Or.inl hr

/-- What a plant has pulled, the cloud's outbox holds for that plant. -/
def PulledOwn (sys : System) : Prop :=
  ∀ x ∈ sys.pulled, ∃ r ∈ sys.cloud.outbox, r.id = x.2.id ∧ r.destination = some x.1

theorem mem_of_pull {db : Database} {authorization : Option String} {plantId : String}
    {limit : Option Int} {entries : List SyncEntry}
    (h : Cloud.pull hashToken db authorization plantId limit = .ok entries) {e : SyncEntry}
    (he : e ∈ entries) :
    ∃ r ∈ db.outbox, r.id = e.id ∧ r.destination = some plantId := by
  unfold Cloud.pull pullForPlant oldestFirst at h
  split at h
  · cases h
  · split at h
    · cases h
    · cases h
      obtain ⟨r, hr, rfl⟩ := List.mem_map.mp he
      have hpending := (List.mem_insertionSort _).mp (List.mem_of_mem_take hr)
      obtain ⟨hmem, hcond⟩ := List.mem_filter.mp hpending
      rw [Bool.and_eq_true, decide_eq_true_eq] at hcond
      exact ⟨r, hmem, rfl, hcond.1⟩

/-- Rows are never removed and never change their destination. -/
theorem destination_step {id plantId : String} (a : Action)
    (h : ∃ r ∈ sys.cloud.outbox, r.id = id ∧ r.destination = some plantId) :
    ∃ r ∈ (step hashToken c sys a).cloud.outbox, r.id = id ∧ r.destination = some plantId := by
  obtain ⟨r, hr, hid, hdest⟩ := h
  rcases outbox_step hashToken c hr a with hr | ⟨p, now, -, hr⟩
  · exact ⟨r, hr, hid, hdest⟩
  · exact ⟨_, hr, hid, hdest⟩

theorem pulledOwn_step (hashToken : String → String) (c : Codec) (a : Action)
    (h : PulledOwn sys) :
    PulledOwn (step hashToken c sys a) := by
  intro x hx
  apply destination_step
  cases a with
  | pull authorization plantId limit =>
      unfold step at hx
      dsimp only at hx
      split at hx
      · exact h x hx
      · rename_i entries hpull
        rcases List.mem_append.mp hx with hx | hx
        · exact h x hx
        · obtain ⟨e, he, rfl⟩ := List.mem_map.mp hx
          exact mem_of_pull hpull he
  | apply now plantTag i =>
      unfold step at hx
      dsimp only at hx
      split at hx <;> exact h x hx
  | create now woId entryId plantId input => exact h x hx
  | push now authorization req => exact h x hx
  | ack now authorization req => exact h x hx
  | transition now p id target => exact h x hx
  | start now p opId => exact h x hx

theorem pulledOwn_exec (hashToken : String → String) (c : Codec) (run : List Action)
    (h : sys.pulled = []) : PulledOwn (exec hashToken c sys run) := by
  refine List.foldlRecOn run (step hashToken c) (motive := PulledOwn) ?_ ?_
  · intro x hx
    rw [h] at hx
    cases hx
  · intro sys hsys a _
    exact pulledOwn_step hashToken c a hsys

end Outbox

end ElectronixMes.Sync
