import ElectronixMes.Sync.Protocol

/-!
# Remote commands

A command waits in the cloud's outbox until an acknowledgement stamps it, and
an edge applies it under its claim in the ledger. The stamp is keyed by row ids
alone, so a command is safe from other plants' acknowledgements exactly when
those name only rows of their own. On the edge each command takes effect at
most once, whatever is delivered again.
-/

namespace ElectronixMes.Sync

open Db Cloud Edge ElectronixMes.Core Relational Serde Transition

section Acknowledgement

variable {hashToken : String → String} {c : Codec} {sys : System}

/-- Every row the request names, and does not find stamped with its own time
already, is destined for the plant. -/
def NamesOwn (db : Database) (now : Int) (req : AckRequest) : Prop :=
  ∀ r ∈ db.outbox, r.id ∈ req.ids → r.syncedAt ≠ some now → r.destination = some req.plantId

/-- Every id of the request is one of an entry that the plant has pulled. -/
def NamesPulled (sys : System) (req : AckRequest) : Prop :=
  ∀ id ∈ req.ids, ∃ e, (req.plantId, e) ∈ sys.pulled ∧ e.id = id

/-- An accepted acknowledgement names rows of its own plant, for instance
entries which that plant has pulled. -/
def AckOwn (hashToken : String → String) (sys : System) : Action → Prop
  | .ack now authorization req =>
      requirePlant hashToken sys.cloud authorization req.plantId = .ok () →
        NamesOwn sys.cloud now req ∨ NamesPulled sys req
  | _ => True

/-- An accepted acknowledgement leaves the rows of all other destinations as
they are exactly when it names none of them. -/
theorem ack_scoped_iff {db : Database} {now : Int} {authorization : Option String}
    {req : AckRequest}
    (hauth : requirePlant hashToken db authorization req.plantId = .ok ()) :
    (∀ r ∈ db.outbox, r.destination ≠ some req.plantId →
      r ∈ (Cloud.ack hashToken db now authorization req).1.outbox) ↔ NamesOwn db now req := by
  constructor
  · intro hkept r hr hid hnow
    by_contra hdest
    obtain ⟨s, hs, hstamp⟩ := (mem_ack_outbox hauth).mp (hkept r hr hdest)
    -- the row found after the call under this id is the stamped one
    have hsr : s = r := by
      apply Table.eq_of_key_eq hs hr
      rw [← hstamp]
      exact (stamp_id req.ids now s).symm
    rw [hsr, stamp, if_pos hid] at hstamp
    exact hnow (congrArg OutboxRow.syncedAt hstamp.symm)
  · intro hown r hr hdest
    refine (mem_ack_outbox hauth).mpr ⟨r, hr, ?_⟩
    by_cases hid : r.id ∈ req.ids
    · have hsynced : r.syncedAt = some now := by
        by_contra hne
        exact hdest (hown r hr hid hne)
      rw [stamp, if_pos hid, ← hsynced]
    · rw [stamp, if_neg hid]

/-- An acknowledgement of pulled entries names rows of its own plant. -/
theorem NamesPulled.namesOwn (hpulled : PulledOwn sys) {req : AckRequest} {now : Int}
    (h : NamesPulled sys req) : NamesOwn sys.cloud now req := by
  intro r hr hid _
  obtain ⟨e, he, heid⟩ := h r.id hid
  obtain ⟨s, hs, hsid, hdest⟩ := hpulled _ he
  have hsr : s = r := Table.eq_of_key_eq hs hr (hsid.trans heid)
  rw [← hsr]
  exact hdest

theorem mem_pendingFor {db : Database} {plantId : String} {r : OutboxRow} :
    r ∈ pendingFor db plantId ↔
      r ∈ db.outbox ∧ r.destination = some plantId ∧ r.syncedAt = none := by
  simp [pendingFor]

/-- A pending command outlives every step but an acknowledgement of its plant
that names it. -/
theorem pending_step (hpulled : PulledOwn sys) {plantId : String} {r : OutboxRow}
    (hr : r ∈ pendingFor sys.cloud plantId) {a : Action} (hown : AckOwn hashToken sys a)
    (hnot : ¬ Acks hashToken plantId r.id sys a) :
    r ∈ pendingFor (step hashToken c sys a).cloud plantId := by
  obtain ⟨hmem, hdest, hsynced⟩ := mem_pendingFor.mp hr
  rcases outbox_step hashToken c hmem a with hmem | ⟨p, now, hacks, -⟩
  · exact mem_pendingFor.mpr ⟨hmem, hdest, hsynced⟩
  · cases a with
    | ack now authorization req =>
        obtain ⟨hauth, hp, hid⟩ := hacks
        have hnames : NamesOwn sys.cloud now req :=
          (hown hauth).elim (fun h => h) (fun h => h.namesOwn hpulled)
        have hreq := hnames r hmem hid (by simp [hsynced])
        rw [hdest, Option.some.injEq] at hreq
        exact absurd ⟨hauth, hreq.symm, hid⟩ hnot
    | create => exact absurd hacks id
    | push => exact absurd hacks id
    | pull => exact absurd hacks id
    | apply => exact absurd hacks id
    | transition => exact absurd hacks id
    | start => exact absurd hacks id

theorem pending_run (hpulled : PulledOwn sys) {plantId : String} {r : OutboxRow}
    (hr : r ∈ pendingFor sys.cloud plantId) {run : List Action}
    (hrun : Along (step hashToken c)
      (fun sys a => AckOwn hashToken sys a ∧ ¬ Acks hashToken plantId r.id sys a) sys run) :
    r ∈ pendingFor (exec hashToken c sys run).cloud plantId := by
  have hboth := hrun.invariant
    (I := fun sys => PulledOwn sys ∧ r ∈ pendingFor sys.cloud plantId) ?_ ⟨hpulled, hr⟩
  · exact hboth.2
  · rintro sys a ⟨hpulled, hr⟩ ⟨hown, hnot⟩
    exact ⟨pulledOwn_step hashToken c a hpulled, pending_step hpulled hr hown hnot⟩

/-- The command that a creation appends is pending for its plant. -/
theorem exists_pending_afterCreate {db : Database} {now : Int} {woId entryId plantId : String}
    {input : RemoteWorkOrderInput} {res : Database × String}
    (h : createRemoteWorkOrder c db now woId entryId plantId input.woNumber input.partId
      input.qtyOrdered input.priority = .ok res) :
    ∃ r ∈ pendingFor (afterCreate c db now woId entryId plantId input) plantId,
      r.id = entryId := by
  obtain ⟨row, hid, hdest, hsynced, hmem⟩ := createRemoteWorkOrder_outbox h
  refine ⟨row, mem_pendingFor.mpr ⟨?_, hdest, hsynced⟩, hid⟩
  unfold afterCreate
  rw [h]
  exact (hmem row).mpr (Or.inr rfl)

/-- An accepted acknowledgement stamps rows of its plant only, exactly when it
names no other; and in every run whose acknowledgements do so, a command stays
in the pulls of its plant until that plant acknowledges it. -/
theorem command_kept_iff_acks_own (hashToken : String → String) (c : Codec) :
    (∀ (db : Database) (now : Int) (authorization : Option String) (req : AckRequest),
      requirePlant hashToken db authorization req.plantId = .ok () →
        ((∀ r ∈ db.outbox, r.destination ≠ some req.plantId →
            r ∈ (Cloud.ack hashToken db now authorization req).1.outbox) ↔
          NamesOwn db now req)) ∧
    (∀ (sys : System) (before after : List Action) (now : Int)
      (woId entryId plantId : String) (input : RemoteWorkOrderInput) (res : Database × String),
      let created := step hashToken c (exec hashToken c sys before)
        (.create now woId entryId plantId input)
      let final := exec hashToken c created after
      sys.pulled = [] →
      createRemoteWorkOrder c (exec hashToken c sys before).cloud now woId entryId plantId
        input.woNumber input.partId input.qtyOrdered input.priority = .ok res →
      Along (step hashToken c)
        (fun sys a => AckOwn hashToken sys a ∧ ¬ Acks hashToken plantId entryId sys a)
        created after →
      ∀ limit : Int, ((pendingFor final.cloud plantId).length : Int) ≤ limit →
        ∃ entries, pullForPlant final.cloud plantId limit = .ok entries ∧
          ∃ e ∈ entries, e.id = entryId) := by
  refine ⟨?_, ?_⟩
  · intro db now authorization req hauth
    exact ack_scoped_iff hauth
  · intro sys before after now woId entryId plantId input res created final hinit hok hrun
      limit hlimit
    obtain ⟨r, hr, rfl⟩ := exists_pending_afterCreate hok
    have hpulled : PulledOwn created :=
      pulledOwn_step hashToken c _ (pulledOwn_exec hashToken c before hinit)
    obtain ⟨entries, hpull, he⟩ := mem_pullForPlant (pending_run hpulled hr hrun) hlimit
    exact ⟨entries, hpull, r.entry, he, rfl⟩

def sampleOrder : RemoteWorkOrderInput := ⟨"WO-1", "part", ⟨10, 0⟩, none⟩

/-- Plant `a` acknowledges, with its own token, the command of plant `b`. -/
theorem ack_stamps_foreign_command :
    ¬ ∀ (db : Database) (now : Int) (authorization : Option String) (req : AckRequest),
        requirePlant sampleHash db authorization req.plantId = .ok () →
        ∀ r ∈ db.outbox, r.destination ≠ some req.plantId →
          r ∈ (Cloud.ack sampleHash db now authorization req).1.outbox := by
  intro hall
  obtain ⟨res, hok⟩ : ∃ res, createRemoteWorkOrder Codec.sample sampleCloud 0 "wo" "command" "b"
      sampleOrder.woNumber sampleOrder.partId sampleOrder.qtyOrdered sampleOrder.priority =
        .ok res := ⟨_, rfl⟩
  obtain ⟨r, hr, hid⟩ := exists_pending_afterCreate hok
  obtain ⟨hmem, hdest, hsynced⟩ := mem_pendingFor.mp hr
  have hauth : requirePlant sampleHash
      (afterCreate Codec.sample sampleCloud 0 "wo" "command" "b" sampleOrder)
      (some "Bearer plant_a") "a" = .ok () := by decide +kernel
  have hown : NamesOwn (afterCreate Codec.sample sampleCloud 0 "wo" "command" "b" sampleOrder) 1
      ⟨"a", ["command"]⟩ :=
    (ack_scoped_iff hauth).mp (hall _ 1 _ ⟨"a", ["command"]⟩ hauth)
  have hforeign := hown r hmem (by simp [hid]) (by simp [hsynced])
  rw [hdest] at hforeign
  exact absurd hforeign (by decide)

/-- The plant pulls and applies its command, another plant acknowledges nothing. -/
def quietRun : List Action :=
  [.pull (some "Bearer plant_b") "b" none, .apply 1 none 0,
    .ack 2 (some "Bearer plant_a") ⟨"a", []⟩]

def sampleSystem : System where
  cloud := sampleCloud
  edges _ := { parts := {"part"} }
  pulled := []

theorem quietRun_keeps_command :
    (∀ r ∈ (afterCreate Codec.sample sampleCloud 0 "wo" "command" "b" sampleOrder).outbox,
      r.destination ≠ some "b" →
      r ∈ (Cloud.ack sampleHash (afterCreate Codec.sample sampleCloud 0 "wo" "command" "b"
        sampleOrder) 1 (some "Bearer plant_b") ⟨"b", ["command"]⟩).1.outbox) ∧
    ∃ entries, pullForPlant (exec sampleHash Codec.sample (step sampleHash Codec.sample
        sampleSystem (.create 0 "wo" "command" "b" sampleOrder)) quietRun).cloud "b" 10 =
      .ok entries ∧ ∃ e ∈ entries, e.id = "command" := by
  refine ⟨?_, ?_⟩
  · refine ((command_kept_iff_acks_own sampleHash Codec.sample).1 _ 1 (some "Bearer plant_b")
      ⟨"b", ["command"]⟩ (by decide +kernel)).mpr ?_
    intro r hr _ _
    obtain rfl := List.mem_singleton.mp hr
    rfl
  · obtain ⟨res, hok⟩ : ∃ res, createRemoteWorkOrder Codec.sample sampleCloud 0 "wo" "command"
        "b" sampleOrder.woNumber sampleOrder.partId sampleOrder.qtyOrdered
        sampleOrder.priority = .ok res := ⟨_, rfl⟩
    refine (command_kept_iff_acks_own sampleHash Codec.sample).2 sampleSystem [] quietRun 0 "wo"
      "command" "b" sampleOrder res rfl hok ?_ 10 (by decide +kernel)
    refine ⟨⟨trivial, id⟩, ⟨trivial, id⟩, ⟨?_, ?_⟩, trivial⟩
    · intro _
      exact Or.inl fun r _ hid => absurd hid List.not_mem_nil
    · rintro ⟨-, -, hid⟩
      exact absurd hid List.not_mem_nil

end Acknowledgement

section AtMostOnce

variable {hashToken : String → String} {c : Codec} {sys : System}

/-- The action hands a plant's edge an entry with this id. -/
def Delivers (plantId id : String) (sys : System) : Action → Bool
  | .apply _ _ i =>
      match sys.pulled[i]? with
      | some (p, e) => p = plantId ∧ e.id = id
      | none => false
  | _ => false

/-- How often the delivery of an entry changes the orders of a plant's edge. -/
def changes (hashToken : String → String) (c : Codec) (plantId id : String) :
    System → List Action → ℕ
  | _, [] => 0
  | sys, a :: rest =>
      (if Delivers plantId id sys a ∧
          ((step hashToken c sys a).edges plantId).workOrders ≠
            (sys.edges plantId).workOrders then 1 else 0) +
        changes hashToken c plantId id (step hashToken c sys a) rest

theorem applied_afterApply {db : Database} {now : Int} {e : SyncEntry} {tag : Option String} :
    db.appliedEntries ⊆ (afterApply c db now e tag).appliedEntries := by
  rcases afterApply_cases c db now e tag with h | ⟨-, row, -, h⟩
  · rw [h]
  · rw [h]
    exact Finset.subset_insert _ _

/-- A claim on an edge is never given back. -/
theorem applied_step {plantId id : String} (a : Action)
    (h : id ∈ (sys.edges plantId).appliedEntries) :
    id ∈ ((step hashToken c sys a).edges plantId).appliedEntries := by
  have hupdate (p : String) (db : Database)
      (hdb : (sys.edges p).appliedEntries ⊆ db.appliedEntries) :
      id ∈ (Function.update sys.edges p db plantId).appliedEntries := by
    by_cases hp : plantId = p
    · subst hp
      rw [Function.update_self]
      exact hdb h
    · rw [Function.update_of_ne hp]
      exact h
  cases a with
  | create => exact h
  | push => exact h
  | ack => exact h
  | pull authorization p limit =>
      unfold step
      dsimp only
      split <;> exact h
  | apply now tag i =>
      unfold step
      dsimp only
      split
      · exact h
      · exact hupdate _ _ applied_afterApply
  | transition now p id target =>
      exact hupdate _ _ (transitionWo_statusOnly _ now id target).applied.ge
  | start now p opId => exact hupdate _ _ (startOp_statusOnly _ now opId).applied.ge

/-- An entry delivered again leaves the edge as it is. -/
theorem redelivery_noop {plantId id : String} {a : Action}
    (happlied : id ∈ (sys.edges plantId).appliedEntries)
    (hdel : Delivers plantId id sys a = true) :
    (step hashToken c sys a).edges = sys.edges := by
  cases a with
  | apply now tag i =>
      unfold Delivers at hdel
      unfold step
      dsimp only at hdel ⊢
      cases hi : sys.pulled[i]? with
      | none => rfl
      | some x =>
          obtain ⟨p, e⟩ := x
          rw [hi] at hdel
          obtain ⟨rfl, rfl⟩ := of_decide_eq_true hdel
          have hnoop : afterApply c (sys.edges p) now e tag = sys.edges p := by
            rw [afterApply, applyEntry_of_mem happlied]
          dsimp only
          rw [hnoop, Function.update_eq_self]
  | create => cases hdel
  | push => cases hdel
  | pull => cases hdel
  | ack => cases hdel
  | transition => cases hdel
  | start => cases hdel

/-- A delivery that changes the edge's orders claims its id there. -/
theorem applied_of_change {plantId id : String} {a : Action}
    (hdel : Delivers plantId id sys a = true)
    (hne : ((step hashToken c sys a).edges plantId).workOrders ≠
      (sys.edges plantId).workOrders) :
    id ∈ ((step hashToken c sys a).edges plantId).appliedEntries := by
  cases a with
  | apply now tag i =>
      unfold Delivers at hdel
      unfold step at hne ⊢
      dsimp only at hdel hne ⊢
      cases hi : sys.pulled[i]? with
      | none =>
          rw [hi] at hne
          exact absurd rfl hne
      | some x =>
          obtain ⟨p, e⟩ := x
          rw [hi] at hdel hne
          obtain ⟨rfl, rfl⟩ := of_decide_eq_true hdel
          dsimp only at hne ⊢
          rw [Function.update_self] at hne ⊢
          rcases afterApply_cases c (sys.edges p) now e tag with h | ⟨-, row, -, h⟩
          · rw [h] at hne
            exact absurd rfl hne
          · rw [h]
            exact Finset.mem_insert_self _ _
  | create => cases hdel
  | push => cases hdel
  | pull => cases hdel
  | ack => cases hdel
  | transition => cases hdel
  | start => cases hdel

theorem changes_of_applied {plantId id : String} {run : List Action}
    (h : id ∈ (sys.edges plantId).appliedEntries) :
    changes hashToken c plantId id sys run = 0 := by
  induction run generalizing sys with
  | nil => rfl
  | cons a rest ih =>
      unfold changes
      rw [ih (applied_step a h), if_neg]
      rintro ⟨hdel, hne⟩
      rw [redelivery_noop h hdel] at hne
      exact hne rfl

theorem changes_le_one {plantId id : String} {run : List Action} :
    changes hashToken c plantId id sys run ≤ 1 := by
  induction run generalizing sys with
  | nil => exact Nat.zero_le 1
  | cons a rest ih =>
      unfold changes
      split
      · rename_i hchange
        rw [changes_of_applied (applied_of_change hchange.1 hchange.2)]
      · rw [Nat.zero_add]
        exact ih

theorem applied_exec {plantId id : String} {run : List Action}
    (h : id ∈ (sys.edges plantId).appliedEntries) :
    id ∈ ((exec hashToken c sys run).edges plantId).appliedEntries :=
  List.foldlRecOn run (step hashToken c)
    (motive := fun sys => id ∈ (sys.edges plantId).appliedEntries) h fun _ h a _ => applied_step a h

/-- A row that no accepted acknowledgement names stays pending. -/
theorem pending_exec_of_unacked {plantId : String} {r : OutboxRow}
    (hr : r ∈ pendingFor sys.cloud plantId) {run : List Action}
    (hrun : Along (step hashToken c) (fun sys a => ∀ p, ¬ Acks hashToken p r.id sys a) sys run) :
    r ∈ pendingFor (exec hashToken c sys run).cloud plantId := by
  refine hrun.invariant (I := fun sys => r ∈ pendingFor sys.cloud plantId) ?_ hr
  intro sys a hr hnot
  obtain ⟨hmem, hdest, hsynced⟩ := mem_pendingFor.mp hr
  rcases outbox_step hashToken c hmem a with hmem | ⟨p, now, hacks, -⟩
  · exact mem_pendingFor.mpr ⟨hmem, hdest, hsynced⟩
  · exact absurd hacks (hnot p)

/-- In every run each command changes a plant's orders at most once; once it is
applied there it stays applied and every further delivery leaves the edge as it
is; and a command that was not acknowledged is in every later pull whose limit
reaches it. -/
theorem commands_at_most_once (hashToken : String → String) (c : Codec) (sys : System)
    (run : List Action) (plantId id : String) :
    changes hashToken c plantId id sys run ≤ 1 ∧
    (id ∈ (sys.edges plantId).appliedEntries →
      id ∈ ((exec hashToken c sys run).edges plantId).appliedEntries ∧
      changes hashToken c plantId id sys run = 0 ∧
      ∀ a, Delivers plantId id (exec hashToken c sys run) a = true →
        (step hashToken c (exec hashToken c sys run) a).edges =
          (exec hashToken c sys run).edges) ∧
    (∀ r ∈ pendingFor sys.cloud plantId, r.id = id →
      Along (step hashToken c) (fun sys a => ∀ p, ¬ Acks hashToken p id sys a) sys run →
      ∀ limit : Int,
        ((pendingFor (exec hashToken c sys run).cloud plantId).length : Int) ≤ limit →
        ∃ entries, pullForPlant (exec hashToken c sys run).cloud plantId limit = .ok entries ∧
          r.entry ∈ entries) := by
  refine ⟨changes_le_one, ?_, ?_⟩
  · intro happlied
    refine ⟨applied_exec happlied, changes_of_applied happlied, ?_⟩
    intro a hdel
    exact redelivery_noop (applied_exec happlied) hdel
  · rintro r hr rfl hrun limit hlimit
    exact mem_pullForPlant (pending_exec_of_unacked hr hrun) hlimit

/-- Plant `b` has applied its command and released the order. -/
def releasedSystem : System :=
  exec sampleHash Codec.sample sampleSystem
    [.create 0 "wo" "command" "b" sampleOrder, .pull (some "Bearer plant_b") "b" none,
      .apply 1 none 0, .transition 2 "b" "wo" .released]

/-- The acknowledgement was lost: the command is pulled and applied once more. -/
def redelivery : List Action := [.pull (some "Bearer plant_b") "b" none, .apply 3 none 1]

theorem redelivery_keeps_release :
    ((exec sampleHash Codec.sample releasedSystem redelivery).edges "b").workOrders.rows.map
        WorkOrderRow.status = ["released"] ∧
    changes sampleHash Codec.sample "b" "command" releasedSystem redelivery = 0 ∧
    ∃ entries, pullForPlant (exec sampleHash Codec.sample releasedSystem redelivery).cloud "b" 10 =
      .ok entries ∧ ∃ e ∈ entries, e.id = "command" := by
  have h := commands_at_most_once sampleHash Codec.sample releasedSystem redelivery "b" "command"
  refine ⟨by decide +kernel, (h.2.1 (by decide +kernel)).2.1, ?_⟩
  obtain ⟨r, hr, hid⟩ : ∃ r ∈ pendingFor releasedSystem.cloud "b", r.id = "command" :=
    ⟨_, List.mem_singleton.mpr rfl, rfl⟩
  obtain ⟨entries, hpull, he⟩ := h.2.2 r hr hid ⟨fun _ => id, fun _ => id, trivial⟩ 10
    (by decide +kernel)
  exact ⟨entries, hpull, r.entry, he, hid⟩

end AtMostOnce

end ElectronixMes.Sync
