import ElectronixMes.Edge.Orders
import ElectronixMes.Edge.Erp
import ElectronixMes.Transition.Run

/-!
# From the edge's orders to the cloud's

Every order an edge creates is queued once, as a draft. Delivering the queue to
an empty cloud, in any order and in any batches, gives the cloud a row for every
order with all its columns as they were created. A status that changed on the
edge was never queued, so the rows agree exactly for the orders still in draft.
-/

namespace ElectronixMes.Sync

open Db Edge ElectronixMes.Core Relational Serde Transition

inductive EdgeOp where
  | create (now : Int) (ids : ℕ → String) (input : WorkOrderInput)
  | importOrders (now : ℕ → Int) (ids : ℕ → ℕ → String) (mapping : FieldMapping)
      (records : List Json)
  | transition (now : Int) (id : String) (target : WoStatus)
  | start (now : Int) (opId : String)

def edgeStep (c : Codec) (debug : RepoError → String) (db : Database) : EdgeOp → Database
  | .create now ids input =>
      match createWorkOrder c db now ids input with
      | .ok res => res.1
      | .error _ => db
  | .importOrders now ids mapping records =>
      (importWorkOrders c debug db now ids mapping records).1
  | .transition now id target => (transitionWo db now id target).1
  | .start now opId => (startOp db now opId).1

/-- An edge without orders. -/
def edgeStart (db : Database) : Database := { db with workOrders := ∅, outbox := ∅ }

/-- The edge a run reaches from one without orders. -/
def edgeReached (c : Codec) (debug : RepoError → String) (db : Database) (ops : List EdgeOp) :
    Database :=
  ops.foldl (edgeStep c debug) (edgeStart db)

/-- The entries bound for the cloud. -/
def toCloud (db : Database) : List SyncEntry :=
  (db.outbox.rows.filter fun r => r.destination.isNone).map OutboxRow.entry

/-- Deliver batches one after the other, each with the times of its entries. -/
def deliver (c : Codec) (plantId : Option String) (cloud : Database)
    (batches : List ((ℕ → Int) × List SyncEntry)) : Database :=
  batches.foldl (fun db b => (applyBatch c db b.1 b.2 plantId).1) cloud

/-- The order as it was created. -/
def draftOf (r : WorkOrderRow) : WoPayload :=
  ⟨r.id, r.woNumber, r.partId, r.routingId, r.qtyOrdered, r.priority, "draft", r.plannedStart,
    r.plannedEnd⟩

/-- The payload of a new order reads back as the order. -/
theorem woPayloadFromJson_orderPayload (c : Codec) (now : Int) (id : String)
    (input : WorkOrderInput) :
    woPayloadFromJson c (orderPayload c id input) = some (draftOf (orderRow now id input)) := by
  simp [woPayloadFromJson, orderPayload, required, Serde.optional, defaulted, List.lookup_cons,
    Json.asString, c.decimal_roundtrip, draftOf, orderRow]

section Steps

variable {c : Codec} {debug : RepoError → String} {db : Database}

/-- The transitions that an operation can make. -/
def EdgeOp.moves : EdgeOp → String → WoStatus → Prop
  | .transition _ id target, woId, status => woId = id ∧ status = target
  | .start _ _, _, status => status = .inProgress
  | _, _, _ => False

/-- What every created order and a change of status keep, an operation keeps. -/
theorem edgeStep_induction {P : Database → Prop} (op : EdgeOp) (hinit : P db)
    (hcreate : ∀ d res now ids input, P d → createWorkOrder c d now ids input = .ok res → P res.1)
    (hlocal : ∀ db', StatusOnly op.moves db db' → P db') : P (edgeStep c debug db op) := by
  cases op with
  | create now ids input =>
      unfold edgeStep
      dsimp only
      split
      · rename_i hok
        exact hcreate _ _ _ _ _ hinit hok
      · exact hinit
  | importOrders now ids mapping records => exact importLoop_induction hcreate hinit
  | transition now id target => exact hlocal _ (transitionWo_statusOnly db now id target)
  | start now opId => exact hlocal _ (startOp_statusOnly db now opId)

/-- The operation releases or cancels the order, which is stored. -/
def leavesDraft (id : String) (db : Database) : EdgeOp → Bool
  | .transition _ woId target =>
      decide (woId = id) && (db.workOrders.lookup id).isSome && WoStatus.draft.canTransition target
  | _ => false

theorem draft_step {id : String} {op : EdgeOp}
    (hdraft : ∀ r ∈ db.workOrders, r.id = id → r.status = "draft")
    (hop : leavesDraft id db op = false) :
    ∀ r ∈ (edgeStep c debug db op).workOrders, r.id = id → r.status = "draft" := by
  refine edgeStep_induction
    (P := fun d => ∀ r ∈ d.workOrders, r.id = id → r.status = "draft") op hdraft ?_ ?_
  · intro d res now ids input hd hok r hr hid
    obtain ⟨hrow, -, -, horders, -⟩ := createWorkOrder_ok hok
    rcases (Table.mem_insert? horders).mp hr with hr | rfl
    · exact hd r hr hid
    · rw [hrow]
      rfl
  · intro db' hs
    refine hs.draft hdraft ?_
    rintro old hold target rfl hmoves
    cases op with
    | create now ids input => exact absurd hmoves id
    | importOrders now ids mapping records => exact absurd hmoves id
    | transition now woId target' =>
        obtain ⟨rfl, rfl⟩ := hmoves
        have hstored : (db.workOrders.lookup old.id).isSome :=
          Option.isSome_iff_exists.mpr ⟨old, Table.lookup_of_mem hold⟩
        simpa [leavesDraft, hstored] using hop
    | start now opId =>
        rw [show target = .inProgress from hmoves]
        rfl

theorem moved_step {id : String} {op : EdgeOp}
    (hdraft : ∀ r ∈ db.workOrders, r.id = id → r.status = "draft")
    (hop : leavesDraft id db op = true) :
    ∃ r ∈ (edgeStep c debug db op).workOrders, r.id = id ∧ r.status ≠ "draft" := by
  unfold leavesDraft at hop
  split at hop
  · rename_i now woId target
    rw [Bool.and_eq_true, Bool.and_eq_true, decide_eq_true_eq, Option.isSome_iff_exists] at hop
    obtain ⟨⟨rfl, old, hold⟩, hcan⟩ := hop
    obtain ⟨hmem, hid⟩ := Table.lookup_eq_some.mp hold
    have hparse : WoStatus.parse old.status = some .draft := by
      rw [hdraft old hmem hid]
      rfl
    refine ⟨old.withStatus target.asStr now, ?_, hid, ?_⟩
    · rw [edgeStep, transitionWo_of_can hold hparse hcan]
      exact Table.mem_put_self _ _
    · intro heq
      exact WoStatus.canTransition_ne_draft hcan (WoStatus.asStr_injective heq)
  · cases hop

theorem moved_stays {id : String} (op : EdgeOp)
    (h : ∃ r ∈ db.workOrders, r.id = id ∧ r.status ≠ "draft") :
    ∃ r ∈ (edgeStep c debug db op).workOrders, r.id = id ∧ r.status ≠ "draft" := by
  refine edgeStep_induction
    (P := fun d => ∃ r ∈ d.workOrders, r.id = id ∧ r.status ≠ "draft") op h ?_ ?_
  · rintro d res now ids input ⟨r, hr, hr'⟩ hok
    obtain ⟨-, -, -, horders, -⟩ := createWorkOrder_ok hok
    exact ⟨r, (Table.mem_insert? horders).mpr (Or.inl hr), hr'⟩
  · intro db' hs
    exact hs.not_draft h

/-- An order is in draft at the end of a run exactly when no step moved it. -/
theorem draft_iff_along {id : String} {ops : List EdgeOp}
    (hdraft : ∀ r ∈ db.workOrders, r.id = id → r.status = "draft") :
    (∀ r ∈ (ops.foldl (edgeStep c debug) db).workOrders, r.id = id → r.status = "draft") ↔
      Along (edgeStep c debug) (fun db op => leavesDraft id db op = false) db ops := by
  induction ops generalizing db with
  | nil => exact iff_of_true hdraft trivial
  | cons op rest ih =>
      cases hop : leavesDraft id db op with
      | false =>
          rw [List.foldl_cons, ih (draft_step hdraft hop)]
          exact ⟨fun h => ⟨hop, h⟩, fun h => h.2⟩
      | true =>
          have hmoved : ∃ r ∈ (rest.foldl (edgeStep c debug) (edgeStep c debug db op)).workOrders,
              r.id = id ∧ r.status ≠ "draft" :=
            List.foldlRecOn rest (edgeStep c debug)
              (motive := fun d => ∃ r ∈ d.workOrders, r.id = id ∧ r.status ≠ "draft")
              (moved_step hdraft hop) fun d h op _ => moved_stays op h
          refine iff_of_false ?_ ?_
          · intro hall
            obtain ⟨r, hr, hid, hne⟩ := hmoved
            exact hne (hall r hr hid)
          · intro halong
            exact Bool.false_ne_true (halong.1.symm.trans hop)

end Steps

section Queue

variable {c : Codec} {debug : RepoError → String} {db db' : Database}

/-- Orders have numbers of their own and valid references, and the feed carries
exactly their drafts. -/
structure Queued (c : Codec) (db : Database) : Prop where
  numbers : ∀ a ∈ db.workOrders, ∀ b ∈ db.workOrders, a.woNumber = b.woNumber → a = b
  refs : ∀ r ∈ db.workOrders, orderRefs db r.partId r.routingId = .ok ()
  queued : ∀ r ∈ db.workOrders, ∃ o ∈ db.outbox, o.destination = none ∧
    entryOrder c o.entry = some (draftOf r)
  feed : ∀ o ∈ db.outbox, ∃ r ∈ db.workOrders, entryOrder c o.entry = some (draftOf r)

theorem orderRefs_congr (hparts : db'.parts = db.parts) (hroutings : db'.routings = db.routings)
    (partId : String) (routingId : Option String) :
    orderRefs db' partId routingId = orderRefs db partId routingId := by
  unfold orderRefs
  rw [hparts, hroutings]

theorem queued_create (h : Queued c db) {now : Int} {ids : ℕ → String} {input : WorkOrderInput}
    {res : Database × WorkOrderRow} (hok : createWorkOrder c db now ids input = .ok res) :
    Queued c res.1 := by
  obtain ⟨hrow, hfree, hrefs, horders, houtbox, hparts, hroutings, -⟩ := createWorkOrder_ok hok
  have hnumber : ∀ a ∈ db.workOrders, a.woNumber ≠ input.woNumber := by
    intro a ha heq
    have hid := numberTaken_eq_false.mp hfree a ha heq
    exact Table.key_ne_of_insert? horders a ha (by rw [hrow]; exact hid)
  have hnew : entryOrder c (orderEntryRow c now ids input).entry =
      some (draftOf (orderRow now (ids 0) input)) :=
    woPayloadFromJson_orderPayload c now (ids 0) input
  rw [hrow] at horders
  constructor
  · intro a ha b hb heq
    rcases (Table.mem_insert? horders).mp ha with ha | rfl <;>
    rcases (Table.mem_insert? horders).mp hb with hb | rfl
    · exact h.numbers a ha b hb heq
    · exact absurd heq (hnumber a ha)
    · exact absurd heq.symm (hnumber b hb)
    · rfl
  · intro r hr
    rw [orderRefs_congr hparts hroutings]
    rcases (Table.mem_insert? horders).mp hr with hr | rfl
    · exact h.refs r hr
    · exact hrefs
  · intro r hr
    rcases (Table.mem_insert? horders).mp hr with hr | rfl
    · obtain ⟨o, ho, hdest, horder⟩ := h.queued r hr
      exact ⟨o, (Table.mem_insert? houtbox).mpr (Or.inl ho), hdest, horder⟩
    · exact ⟨_, (Table.mem_insert? houtbox).mpr (Or.inr rfl), rfl, hnew⟩
  · intro o ho
    rcases (Table.mem_insert? houtbox).mp ho with ho | rfl
    · obtain ⟨r, hr, horder⟩ := h.feed o ho
      exact ⟨r, (Table.mem_insert? horders).mpr (Or.inl hr), horder⟩
    · exact ⟨_, (Table.mem_insert? horders).mpr (Or.inr rfl), hnew⟩

theorem queued_statusOnly {allowed : String → WoStatus → Prop} (h : Queued c db)
    (hs : StatusOnly allowed db db') : Queued c db' := by
  rcases hs.orders with horders | ⟨old, hold, current, target, now, -, -, -, horders⟩
  · refine ⟨?_, ?_, ?_, ?_⟩
    · rw [horders]
      exact h.numbers
    · intro r hr
      rw [orderRefs_congr hs.parts hs.routings]
      exact h.refs r (horders ▸ hr)
    · rw [horders, hs.outbox]
      exact h.queued
    · rw [horders, hs.outbox]
      exact h.feed
  · -- the rewritten row stands for the row it replaces
    have hback : ∀ r ∈ db'.workOrders,
        ∃ s ∈ db.workOrders, s.id = r.id ∧ draftOf r = draftOf s := by
      intro r hr
      rw [horders] at hr
      rcases Table.mem_put.mp hr with rfl | ⟨hr, -⟩
      · exact ⟨old, hold, rfl, rfl⟩
      · exact ⟨r, hr, rfl, rfl⟩
    have hforth : ∀ s ∈ db.workOrders, ∃ r ∈ db'.workOrders, draftOf r = draftOf s := by
      intro s hsm
      rw [horders]
      by_cases hid : s.id = old.id
      · have heq : s = old := Table.eq_of_key_eq hsm hold hid
        rw [heq]
        exact ⟨_, Table.mem_put_self _ _, rfl⟩
      · exact ⟨s, Table.mem_put.mpr (Or.inr ⟨hsm, hid⟩), rfl⟩
    constructor
    · intro a ha b hb heq
      obtain ⟨s, hsm, hsid, hsdraft⟩ := hback a ha
      obtain ⟨u, hum, huid, hudraft⟩ := hback b hb
      have hsu : s = u := by
        apply h.numbers s hsm u hum
        have hsn : a.woNumber = s.woNumber := congrArg WoPayload.woNumber hsdraft
        have hun : b.woNumber = u.woNumber := congrArg WoPayload.woNumber hudraft
        rw [← hsn, ← hun, heq]
      apply Table.eq_of_key_eq ha hb
      rw [key_workOrder, key_workOrder, ← hsid, ← huid, hsu]
    · intro r hr
      obtain ⟨s, hsm, -, hdraft⟩ := hback r hr
      have hpart : r.partId = s.partId := congrArg WoPayload.partId hdraft
      have hrouting : r.routingId = s.routingId := congrArg WoPayload.routingId hdraft
      rw [orderRefs_congr hs.parts hs.routings, hpart, hrouting]
      exact h.refs s hsm
    · intro r hr
      obtain ⟨s, hsm, -, hdraft⟩ := hback r hr
      rw [hs.outbox, hdraft]
      exact h.queued s hsm
    · rw [hs.outbox]
      intro o ho
      obtain ⟨s, hsm, horder⟩ := h.feed o ho
      obtain ⟨r, hr, hdraft⟩ := hforth s hsm
      exact ⟨r, hr, by rw [horder, hdraft]⟩

theorem queued_step (h : Queued c db) (op : EdgeOp) : Queued c (edgeStep c debug db op) := by
  refine edgeStep_induction (P := Queued c) op h ?_ ?_
  · intro d res now ids input hd hok
    exact queued_create hd hok
  · intro db' hs
    exact queued_statusOnly h hs

theorem refs_step (op : EdgeOp) :
    (edgeStep c debug db op).parts = db.parts ∧
      (edgeStep c debug db op).routings = db.routings := by
  refine edgeStep_induction
    (P := fun d => d.parts = db.parts ∧ d.routings = db.routings) op ⟨rfl, rfl⟩ ?_ ?_
  · intro d res now ids input hd hok
    obtain ⟨-, -, -, -, -, hparts, hroutings, -⟩ := createWorkOrder_ok hok
    exact ⟨hparts.trans hd.1, hroutings.trans hd.2⟩
  · intro db' hs
    exact ⟨hs.parts, hs.routings⟩

theorem queued_reached (c : Codec) (debug : RepoError → String) (db : Database)
    (ops : List EdgeOp) :
    Queued c (edgeReached c debug db ops) ∧
      (edgeReached c debug db ops).parts = db.parts ∧
      (edgeReached c debug db ops).routings = db.routings := by
  refine List.foldlRecOn ops (edgeStep c debug) (motive := fun d =>
    Queued c d ∧ d.parts = db.parts ∧ d.routings = db.routings) ?_ ?_
  · refine ⟨?_, rfl, rfl⟩
    constructor <;> intro r hr <;> exact absurd hr (Table.notMem_empty r)
  · rintro d ⟨hq, hparts, hroutings⟩ op -
    exact ⟨queued_step hq op, (refs_step op).1.trans hparts, (refs_step op).2.trans hroutings⟩

end Queue

section Delivery

variable {c : Codec} {plantId : Option String} {edge cloud : Database}

/-- The cloud holds drafts of the edge's orders only. -/
structure Mirrors (edge cloud : Database) : Prop where
  parts : edge.parts ⊆ cloud.parts
  routings : edge.routings ⊆ cloud.routings
  rows : ∀ w ∈ cloud.workOrders, w.status = "draft" ∧
    ∃ r ∈ edge.workOrders, draftOf w = draftOf r

theorem orderRefs_mono (hparts : edge.parts ⊆ cloud.parts)
    (hroutings : edge.routings ⊆ cloud.routings) {partId : String} {routingId : Option String}
    (h : orderRefs edge partId routingId = .ok ()) :
    orderRefs cloud partId routingId = .ok () := by
  unfold orderRefs at h ⊢
  split at h
  · cases h
  · rename_i hpart
    rw [not_not] at hpart
    rw [if_neg (not_not.mpr (hparts hpart))]
    cases routingId with
    | none => rfl
    | some k =>
        unfold optionalRef at h ⊢
        dsimp only at h ⊢
        split at h
        · rename_i hk
          rw [decide_eq_true_eq] at hk
          rw [if_pos (decide_eq_true (hroutings hk))]
        · cases h

/-- The draft of an edge's order is accepted and written as it is. -/
theorem entryWrite_draft (hq : Queued c edge) (hm : Mirrors edge cloud) {e : SyncEntry}
    {r : WorkOrderRow} (hr : r ∈ edge.workOrders) (horder : entryOrder c e = some (draftOf r))
    (now : Int) (plantId : Option String) :
    ∃ w, entryWrite c cloud now e plantId = .ok (some w) ∧ w.status = "draft" ∧
      draftOf w = draftOf r := by
  -- a row of the cloud with this number is a draft of the same order
  have hfree : numberTaken cloud.workOrders r.woNumber r.id = false := by
    rw [numberTaken_eq_false]
    intro w hw hnumber
    obtain ⟨-, s, hs, hdraft⟩ := hm.rows w hw
    have hsn : w.woNumber = s.woNumber := congrArg WoPayload.woNumber hdraft
    have hsid : w.id = s.id := congrArg WoPayload.id hdraft
    rw [hsid, hq.numbers s hs r hr (by rw [← hsn, hnumber])]
  have hup : ∃ w, upsertRow cloud now (draftOf r) plantId = .ok w ∧ w.status = "draft" ∧
      draftOf w = draftOf r := by
    have hnot : ¬ numberTaken cloud.workOrders (draftOf r).woNumber (draftOf r).id = true := by
      rw [Bool.not_eq_true]
      exact hfree
    rw [upsertRow, if_neg hnot]
    cases hlookup : cloud.workOrders.lookup (draftOf r).id with
    | some old =>
        refine ⟨_, rfl, rfl, ?_⟩
        obtain ⟨hmem, hid⟩ := Table.lookup_eq_some.mp hlookup
        obtain ⟨-, s, hs, hdraft⟩ := hm.rows old hmem
        have hsr : s = r := by
          apply Table.eq_of_key_eq hs hr
          exact (congrArg WoPayload.id hdraft).symm.trans hid
        rw [hsr] at hdraft
        have hpart : old.partId = r.partId := congrArg WoPayload.partId hdraft
        have hrouting : old.routingId = r.routingId := congrArg WoPayload.routingId hdraft
        have holdid : old.id = r.id := hid
        simp only [draftOf, hpart, hrouting, holdid]
    | none =>
        have hrefs : orderRefs cloud (draftOf r).partId (draftOf r).routingId = .ok () :=
          orderRefs_mono hm.parts hm.routings (hq.refs r hr)
        dsimp only
        rw [hrefs]
        exact ⟨_, rfl, rfl, rfl⟩
  obtain ⟨w, hw, hstatus, hdraft⟩ := hup
  refine ⟨w, ?_, hstatus, hdraft⟩
  rw [entryWrite_of_order horder, hw]

/-- What delivering some entries has done: the cloud still mirrors the edge, no
row got lost, each entry has its row, and only their ids were claimed. -/
structure DeliveredTo (c : Codec) (edge cloud final : Database) (entries : List SyncEntry) :
    Prop where
  mirrors : Mirrors edge final
  kept : ∀ w ∈ cloud.workOrders, ∃ w' ∈ final.workOrders, w'.id = w.id
  arrived : ∀ e ∈ entries, ∀ wo, entryOrder c e = some wo → ∃ w ∈ final.workOrders, w.id = wo.id
  claims : ∀ id ∈ final.appliedEntries, id ∈ cloud.appliedEntries ∨ id ∈ entries.map SyncEntry.id

theorem DeliveredTo.append {mid final : Database} {first second : List SyncEntry}
    (h : DeliveredTo c edge cloud mid first) (h' : DeliveredTo c edge mid final second) :
    DeliveredTo c edge cloud final (first ++ second) := by
  have hthrough : ∀ id, (∃ w ∈ mid.workOrders, w.id = id) → ∃ w ∈ final.workOrders, w.id = id := by
    rintro id ⟨w, hw, rfl⟩
    exact h'.kept w hw
  constructor
  · exact h'.mirrors
  · intro w hw
    exact hthrough _ (h.kept w hw)
  · intro e he wo hwo
    rcases List.mem_append.mp he with he | he
    · exact hthrough _ (h.arrived e he wo hwo)
    · exact h'.arrived e he wo hwo
  · intro id hid
    rw [List.map_append, List.mem_append, ← or_assoc]
    rcases h'.claims id hid with hid | hid
    · exact Or.inl (h.claims id hid)
    · exact Or.inr hid

theorem deliveredTo_commit (hm : Mirrors edge cloud) {e : SyncEntry} {r w : WorkOrderRow}
    (hr : r ∈ edge.workOrders) (horder : entryOrder c e = some (draftOf r))
    (hstatus : w.status = "draft") (hdraft : draftOf w = draftOf r) :
    DeliveredTo c edge cloud (commitEntry cloud e.id (some w)) [e] := by
  refine ⟨⟨hm.parts, hm.routings, ?_⟩, ?_, ?_, ?_⟩
  · intro x hx
    rcases Table.mem_put.mp hx with rfl | ⟨hx, -⟩
    · exact ⟨hstatus, r, hr, hdraft⟩
    · exact hm.rows x hx
  · intro x hx
    by_cases hid : x.id = w.id
    · exact ⟨w, Table.mem_put_self _ w, hid.symm⟩
    · exact ⟨x, Table.mem_put.mpr (Or.inr ⟨hx, hid⟩), rfl⟩
  · intro e' he' wo hwo
    obtain rfl := List.mem_singleton.mp he'
    rw [horder, Option.some.injEq] at hwo
    refine ⟨w, Table.mem_put_self _ w, ?_⟩
    rw [← hwo, ← hdraft]
    rfl
  · intro id hid
    rcases Finset.mem_insert.mp hid with rfl | hid
    · exact Or.inr (by simp)
    · exact Or.inl hid

/-- A batch of drafts whose ids are new is applied to its end. -/
theorem deliveredTo_batch (hq : Queued c edge) {entries : List SyncEntry} {now : ℕ → Int}
    {applied skipped : ℕ} (hm : Mirrors edge cloud) (hids : (entries.map SyncEntry.id).Nodup)
    (hnew : ∀ e ∈ entries, e.id ∉ cloud.appliedEntries)
    (hfeed : ∀ e ∈ entries, ∃ r ∈ edge.workOrders, entryOrder c e = some (draftOf r)) :
    DeliveredTo c edge cloud
      (applyBatchLoop c plantId now cloud entries applied skipped).1 entries := by
  induction entries generalizing cloud now applied skipped with
  | nil =>
      refine ⟨hm, fun w hw => ⟨w, hw, rfl⟩, ?_, fun id hid => Or.inl hid⟩
      intro e he
      cases he
  | cons e rest ih =>
      obtain ⟨hnotin, hrest⟩ := List.nodup_cons.mp hids
      obtain ⟨r, hr, horder⟩ := hfeed e List.mem_cons_self
      obtain ⟨w, hw, hstatus, hdraft⟩ := entryWrite_draft hq hm hr horder (now 0) plantId
      have hfirst := deliveredTo_commit hm hr horder hstatus hdraft
      rw [applyBatchLoop, applyEntry_of_notMem (hnew e List.mem_cons_self), hw]
      refine hfirst.append (ih hfirst.mirrors hrest ?_ ?_)
      · intro e' he' hmem
        rcases Finset.mem_insert.mp hmem with heq | hmem
        · exact hnotin (heq ▸ List.mem_map_of_mem he')
        · exact hnew e' (List.mem_cons_of_mem _ he') hmem
      · exact fun e' he' => hfeed e' (List.mem_cons_of_mem _ he')

theorem deliveredTo_batches (plantId : Option String) (hq : Queued c edge)
    {batches : List ((ℕ → Int) × List SyncEntry)} (hm : Mirrors edge cloud)
    (hids : ((batches.flatMap Prod.snd).map SyncEntry.id).Nodup)
    (hnew : ∀ e ∈ batches.flatMap Prod.snd, e.id ∉ cloud.appliedEntries)
    (hfeed : ∀ e ∈ batches.flatMap Prod.snd,
      ∃ r ∈ edge.workOrders, entryOrder c e = some (draftOf r)) :
    DeliveredTo c edge cloud (deliver c plantId cloud batches) (batches.flatMap Prod.snd) := by
  induction batches generalizing cloud with
  | nil =>
      refine ⟨hm, fun w hw => ⟨w, hw, rfl⟩, ?_, fun id hid => Or.inl hid⟩
      intro e he
      cases he
  | cons batch rest ih =>
      rw [List.flatMap_cons] at hids hnew hfeed ⊢
      rw [List.map_append, List.nodup_append] at hids
      have hfirst : DeliveredTo c edge cloud (applyBatch c cloud batch.1 batch.2 plantId).1
          batch.2 :=
        deliveredTo_batch hq hm hids.1 (fun e he => hnew e (List.mem_append_left _ he))
          (fun e he => hfeed e (List.mem_append_left _ he))
      refine hfirst.append (ih hfirst.mirrors hids.2.1 ?_ ?_)
      · intro e he hmem
        rcases hfirst.claims e.id hmem with hmem | hmem
        · exact hnew e (List.mem_append_right _ he) hmem
        · exact hids.2.2 _ hmem _ (List.mem_map_of_mem he) rfl
      · exact fun e he => hfeed e (List.mem_append_right _ he)

end Delivery

/-- The cloud's row of an order agrees with the edge's. -/
def Agrees (r : WorkOrderRow) (cloud : Database) : Prop :=
  ∃ w ∈ cloud.workOrders, w.id = r.id ∧ w.woNumber = r.woNumber ∧ w.partId = r.partId ∧
    w.routingId = r.routingId ∧ w.qtyOrdered = r.qtyOrdered ∧ w.priority = r.priority ∧
    w.status = r.status ∧ w.plannedStart = r.plannedStart ∧ w.plannedEnd = r.plannedEnd

/-- The cloud agrees with the edge on exactly the orders in draft. -/
theorem agrees_iff_draft {c : Codec} {debug : RepoError → String} {db : Database}
    {ops : List EdgeOp} {cloud : Database} (plantId : Option String)
    {batches : List ((ℕ → Int) × List SyncEntry)}
    (hparts : db.parts ⊆ cloud.parts) (hroutings : db.routings ⊆ cloud.routings)
    (horders : cloud.workOrders = ∅) (hledger : cloud.appliedEntries = ∅)
    (hdelivery : (batches.flatMap Prod.snd).Perm (toCloud (edgeReached c debug db ops))) :
    ∀ r ∈ (edgeReached c debug db ops).workOrders,
      Agrees r (deliver c plantId cloud batches) ↔ r.status = "draft" := by
  obtain ⟨hq, hedgeParts, hedgeRoutings⟩ := queued_reached c debug db ops
  have hm : Mirrors (edgeReached c debug db ops) cloud := by
    refine ⟨hedgeParts ▸ hparts, hedgeRoutings ▸ hroutings, ?_⟩
    intro w hw
    rw [horders] at hw
    exact absurd hw (Table.notMem_empty w)
  have hids : ((batches.flatMap Prod.snd).map SyncEntry.id).Nodup := by
    rw [(hdelivery.map _).nodup_iff, toCloud, List.map_map]
    exact (List.filter_sublist.map _).nodup (edgeReached c debug db ops).outbox.unique
  have hfeed : ∀ e ∈ batches.flatMap Prod.snd,
      ∃ r ∈ (edgeReached c debug db ops).workOrders, entryOrder c e = some (draftOf r) := by
    intro e he
    obtain ⟨o, ho, rfl⟩ := List.mem_map.mp (hdelivery.mem_iff.mp he)
    exact hq.feed o (List.mem_filter.mp ho).1
  have hdelivered := deliveredTo_batches plantId hq hm hids
    (fun e _ => by rw [hledger]; exact Finset.notMem_empty _) hfeed
  intro r hr
  obtain ⟨o, ho, hdest, horder⟩ := hq.queued r hr
  have hin : o.entry ∈ batches.flatMap Prod.snd :=
    hdelivery.mem_iff.mpr (List.mem_map_of_mem (List.mem_filter.mpr ⟨ho, by simp [hdest]⟩))
  obtain ⟨w, hw, hid⟩ := hdelivered.arrived o.entry hin _ horder
  obtain ⟨hstatus, s, hs, hdraft⟩ := hdelivered.mirrors.rows w hw
  have hsr : s = r := by
    apply Table.eq_of_key_eq hs hr
    exact (congrArg WoPayload.id hdraft).symm.trans hid
  rw [hsr] at hdraft
  constructor
  · rintro ⟨w', hw', hid', -, -, -, -, -, hstatus', -, -⟩
    have heq : w' = w := Table.eq_of_key_eq hw' hw (hid'.trans hid.symm)
    rw [← hstatus', heq, hstatus]
  · intro hdraftStatus
    unfold draftOf at hdraft
    injection hdraft with h₁ h₂ h₃ h₄ h₅ h₆ h₇ h₈ h₉
    exact ⟨w, hw, h₁, h₂, h₃, h₄, h₅, h₆, hstatus.trans hdraftStatus.symm, h₈, h₉⟩

/-- After every cloud-bound entry of the edge has been delivered, in any order
and in any batches, to a cloud without orders that knows the edge's parts and
routings, the cloud agrees with the edge on exactly the orders that no step of
the edge released or cancelled. -/
theorem cloud_agrees_iff_unmoved (c : Codec) (debug : RepoError → String) (db : Database)
    (ops : List EdgeOp) (cloud : Database) (plantId : Option String)
    (batches : List ((ℕ → Int) × List SyncEntry))
    (hparts : db.parts ⊆ cloud.parts) (hroutings : db.routings ⊆ cloud.routings)
    (horders : cloud.workOrders = ∅) (hledger : cloud.appliedEntries = ∅)
    (hdelivery : (batches.flatMap Prod.snd).Perm (toCloud (edgeReached c debug db ops))) :
    ∀ r ∈ (edgeReached c debug db ops).workOrders,
      Agrees r (deliver c plantId cloud batches) ↔
        Along (edgeStep c debug) (fun db op => leavesDraft r.id db op = false)
          (edgeStart db) ops := by
  intro r hr
  rw [agrees_iff_draft plantId hparts hroutings horders hledger hdelivery r hr,
    ← draft_iff_along fun s hs => absurd hs (Table.notMem_empty s)]
  constructor
  · intro hstatus s hs hid
    have hsr : s = r := Table.eq_of_key_eq hs hr hid
    rw [hsr, hstatus]
  · intro hall
    exact hall r hr rfl

section Sample

def sampleEdge : Database := { parts := {"part"} }

def sampleInput : WorkOrderInput :=
  { woNumber := "WO-1", partId := "part", routingId := none, qtyOrdered := ⟨10, 0⟩,
    priority := none, plannedStart := none, plannedEnd := none }

/-- One order is created, with the id `wo`. -/
def createRun : List EdgeOp :=
  [.create 0 (fun i => if i = 0 then "wo" else "entry") sampleInput]

/-- It is then released. -/
def releaseRun : List EdgeOp := createRun ++ [.transition 1 "wo" .released]

/-- What a fetch of the whole feed returns, oldest first. -/
def oldest (db : Database) : List SyncEntry := (fetchToCloud db 500).toOption.getD []

/-- The released order reaches the cloud as a draft. -/
theorem release_not_delivered :
    ¬ ∀ (c : Codec) (debug : RepoError → String) (db : Database) (ops : List EdgeOp)
        (cloud : Database) (plantId : Option String) (limit : Int) (clock : ℕ → Int)
        (entries : List SyncEntry),
        db.parts ⊆ cloud.parts → db.routings ⊆ cloud.routings →
        cloud.workOrders = ∅ → cloud.appliedEntries = ∅ →
        ((toCloud (edgeReached c debug db ops)).length : Int) ≤ limit →
        fetchToCloud (edgeReached c debug db ops) limit = .ok entries →
        ∀ r ∈ (edgeReached c debug db ops).workOrders,
          Agrees r (applyBatch c cloud clock entries plantId).1 := by
  intro hall
  obtain ⟨r, hr, hstatus⟩ : ∃ r ∈ (edgeReached Codec.sample (fun _ => "") sampleEdge
      releaseRun).workOrders.rows, r.status = "released" := by decide +kernel
  obtain ⟨w, hw, -, -, -, -, -, -, hagree, -, -⟩ :=
    hall Codec.sample (fun _ => "") sampleEdge releaseRun sampleEdge (some "a") 500 (fun _ => 2)
      (oldest (edgeReached Codec.sample (fun _ => "") sampleEdge releaseRun))
      (Finset.Subset.refl _) (Finset.Subset.refl _) rfl rfl (by decide +kernel) rfl r hr
  have hdraft : ∀ w ∈ (applyBatch Codec.sample sampleEdge (fun _ => 2)
      (oldest (edgeReached Codec.sample (fun _ => "") sampleEdge releaseRun))
      (some "a")).1.workOrders.rows, w.status = "draft" := by decide +kernel
  rw [hdraft w hw, hstatus] at hagree
  exact absurd hagree (by decide)

/-- An order that nobody has moved arrives as it is. -/
theorem draft_delivered :
    ∃ r ∈ (edgeReached Codec.sample (fun _ => "") sampleEdge createRun).workOrders,
      Agrees r (deliver Codec.sample (some "a") sampleEdge
        [(fun _ => 2, toCloud (edgeReached Codec.sample (fun _ => "") sampleEdge createRun))]) := by
  obtain ⟨r, hr⟩ : ∃ r, r ∈ (edgeReached Codec.sample (fun _ => "") sampleEdge
      createRun).workOrders := ⟨_, List.mem_cons_self⟩
  refine ⟨r, hr, ?_⟩
  exact (cloud_agrees_iff_unmoved Codec.sample (fun _ => "") sampleEdge createRun sampleEdge
    (some "a") [(fun _ => 2, toCloud (edgeReached Codec.sample (fun _ => "") sampleEdge
      createRun))] (Finset.Subset.refl _) (Finset.Subset.refl _) rfl rfl (by simp) r hr).mpr
    ⟨rfl, trivial⟩

end Sample

end ElectronixMes.Sync
