import ElectronixMes.Edge.Dnc
import ElectronixMes.Transition.Run

/-!
# Matching events to transfers

Runs of the edge with the TCP client: transfers are scheduled, the process is
restarted at any time with a new client over the same database, and the daemon
reports the outcome of transfers under the references that were returned for them.
The count behind a reference starts again with the process, so two stored transfers
may carry the same one; an event then closes the newer.
-/

namespace ElectronixMes.Programs

open Db ElectronixMes.Core Edge DncBridge Relational Transition

/-- The database and the client of the running process. -/
structure Station where
  db : Database
  dnc : TcpDncClient

/-- What the daemon reports of a transfer. -/
inductive Outcome where
  | completed
  | failed (error : String)

namespace Outcome

def status : Outcome → TransferStatus
  | completed => .completed
  | failed _ => .failed

def event (reference : String) : Outcome → DncEvent
  | completed => .transferCompleted reference
  | failed error => .transferFailed reference error

theorem handle_event (o : Outcome) (db : Database) (now : Int) (id reference : String) :
    handleDaemonEvent db now id (o.event reference) = closeTransfer db now reference o.status := by
  cases o <;> rfl

end Outcome

inductive Action where
  | schedule (socket : Option DncBridgeError) (now : Int) (id : String) (r : TransferRequest)
  | restart
  | event (now : Int) (id transferId : String) (outcome : Outcome)

/-- The reference that was returned for a transfer. -/
def referenceOf (db : Database) (transferId : String) : Option String :=
  (db.dncTransferEvents.lookup transferId).bind TransferRow.dncDaemonRef

/-- One step of the edge. An event carries the reference of its transfer. -/
def Station.step (s : Station) : Action → Station
  | .schedule socket now id r =>
      let res := (scheduleTransfer s.db s.dnc socket now id r).1
      ⟨res.1, res.2⟩
  | .restart => { s with dnc := .new }
  | .event now id transferId outcome =>
      match referenceOf s.db transferId with
      | none => s
      | some ref => { s with db := (handleDaemonEvent s.db now id (outcome.event ref)).1 }

/-- The event sets the status of its own transfer if that is open, and no other. -/
def ClosesOwn (s : Station) : Action → Prop
  | .event now id transferId outcome =>
      ∀ t ∈ s.db.dncTransferEvents.lookup transferId, t.dncDaemonRef.isSome → ∀ k,
        transferStatus (s.step (.event now id transferId outcome)).db k =
          if k = transferId ∧ t.IsOpen then some outcome.status.asStr
          else transferStatus s.db k
  | _ => True

/-- No other open transfer has the reference of the event's transfer, older ones
apart while that transfer is open itself. -/
def Unshared (s : Station) : Action → Prop
  | .event _ _ transferId _ =>
      ∀ t ∈ s.db.dncTransferEvents.lookup transferId, t.dncDaemonRef.isSome →
        ∀ u ∈ s.db.dncTransferEvents.rows, u.dncDaemonRef = t.dncDaemonRef → u.IsOpen →
          u = t ∨ t.IsOpen ∧ u.triggeredAt < t.triggeredAt
  | _ => True

instance (s : Station) : (a : Action) → Decidable (Unshared s a)
  | .event _ _ transferId _ => inferInstanceAs (Decidable
      (∀ t ∈ s.db.dncTransferEvents.lookup transferId, t.dncDaemonRef.isSome →
        ∀ u ∈ s.db.dncTransferEvents.rows, u.dncDaemonRef = t.dncDaemonRef → u.IsOpen →
          u = t ∨ t.IsOpen ∧ u.triggeredAt < t.triggeredAt))
  | .schedule _ _ _ _ => inferInstanceAs (Decidable True)
  | .restart => inferInstanceAs (Decidable True)

/-- Open transfers with one reference were triggered at different instants. -/
def Untied (s : Station) (_ : Action) : Prop :=
  ∀ t ∈ s.db.dncTransferEvents, ∀ u ∈ s.db.dncTransferEvents, t.dncDaemonRef = u.dncDaemonRef →
    t.IsOpen → u.IsOpen → t.triggeredAt = u.triggeredAt → t = u

section Step

variable {s : Station} {a : Action}

theorem status_not_open (o : Outcome) {t : TransferRow} (h : t.status = o.status.asStr) :
    ¬ t.IsOpen := by
  rintro ⟨hcompleted, hfailed⟩
  cases o with
  | completed => exact hcompleted h
  | failed error => exact hfailed h

/-- An event of a stored transfer is the closing by its reference. -/
theorem step_event {now : Int} {id transferId ref : String} {outcome : Outcome} {t : TransferRow}
    (ht : s.db.dncTransferEvents.lookup transferId = some t) (href : t.dncDaemonRef = some ref) :
    (s.step (.event now id transferId outcome)).db =
      (closeTransfer s.db now ref outcome.status).1 := by
  simp only [Station.step, referenceOf, ht, Option.bind_some, href, outcome.handle_event]

theorem closesOwn_of_unshared (h : Unshared s a) : ClosesOwn s a := by
  cases a with
  | schedule socket now id r => trivial
  | restart => trivial
  | event now id transferId outcome =>
      intro t ht hsome k
      obtain ⟨ref, href⟩ := Option.isSome_iff_exists.mp hsome
      obtain ⟨hmem, hkey⟩ := Table.lookup_eq_some.mp ht
      rw [step_event ht href]
      rcases closeTransfer_cases s.db now ref outcome.status with
        ⟨hnone, hdb⟩ | ⟨u, hfind, hdb⟩
      · have hclosed : ¬ t.IsOpen := findOpenTransferByRef_none hnone t hmem href
        rw [hdb, if_neg (fun h => hclosed h.2)]
      · obtain ⟨hu, huref, huopen, hnewest⟩ := findOpenTransferByRef_some hfind
        have hut : u = t := by
          rcases h t ht hsome u hu (huref.trans href.symm) huopen with hut | ⟨hopen, hlt⟩
          · exact hut
          · exact absurd (hnewest t hmem href hopen) (not_le.mpr hlt)
        subst hut
        have hid : u.id = transferId := hkey
        rw [hdb, transferStatus_put]
        simp only [TransferRow.withStatus_id, TransferRow.withStatus_status, hid, huopen, and_true]

/-- Without ties, only unshared references are closed right. -/
theorem unshared_of_closesOwn (huntied : Untied s a) (h : ClosesOwn s a) : Unshared s a := by
  cases a with
  | schedule socket now id r => trivial
  | restart => trivial
  | event now id transferId outcome =>
      intro t ht hsome u hu huref huopen
      obtain ⟨ref, href⟩ := Option.isSome_iff_exists.mp hsome
      have hown := h t ht hsome
      rw [step_event ht href] at hown
      rcases closeTransfer_cases s.db now ref outcome.status with
        ⟨hnone, -⟩ | ⟨v, hfind, hdb⟩
      · exact absurd huopen (findOpenTransferByRef_none hnone u hu (huref.trans href))
      · obtain ⟨hv, hvref, hvopen, hnewest⟩ := findOpenTransferByRef_some hfind
        have hvlookup : s.db.dncTransferEvents.lookup v.id = some v := Table.lookup_of_mem hv
        -- the transfer that was closed must be the event's own
        have hvt : v.id = transferId ∧ t.IsOpen := by
          by_contra hne
          have hk := hown v.id
          rw [if_neg hne, hdb, transferStatus_put, TransferRow.withStatus_id, if_pos rfl,
            TransferRow.withStatus_status, transferStatus, hvlookup] at hk
          exact status_not_open outcome (Option.some.inj hk).symm hvopen
        obtain ⟨hid, hopen⟩ := hvt
        obtain rfl : v = t := by
          rw [hid, ht] at hvlookup
          exact (Option.some.inj hvlookup).symm
        rcases Int.lt_or_eq_of_le (hnewest u hu (huref.trans href) huopen) with hlt | heq
        · exact Or.inr ⟨hopen, hlt⟩
        · exact Or.inl (huntied u hu v hv huref huopen hopen heq)

end Step

/-- In every run each of whose events finds its reference unshared, every event
closes its own transfer and no other; and if no two open transfers with one
reference were triggered at the same instant, only in these runs. -/
theorem events_close_own_transfer (s : Station) (run : List Action) :
    (Along Station.step Unshared s run → Along Station.step ClosesOwn s run) ∧
      (Along Station.step Untied s run → Along Station.step ClosesOwn s run →
        Along Station.step Unshared s run) := by
  induction run generalizing s with
  | nil => exact ⟨id, fun _ => id⟩
  | cons a rest ih =>
      obtain ⟨hif, honly⟩ := ih (s.step a)
      refine ⟨?_, ?_⟩
      · rintro ⟨ha, hrest⟩
        exact ⟨closesOwn_of_unshared ha, hif hrest⟩
      · rintro ⟨huntied, hties⟩ ⟨ha, hrest⟩
        exact ⟨unshared_of_closesOwn huntied ha, honly hties hrest⟩

section Numbered

/-- A database without transfers. -/
def unscheduled (db : Database) : Database := { db with dncTransferEvents := ∅ }

/-- After `k` sends of one process: each stored transfer has the reference of one of
them, and no two have the same. -/
structure Numbered (k : ℕ) (s : Station) : Prop where
  counter : s.dnc.counter = UInt64.ofNat k
  below : ∀ t ∈ s.db.dncTransferEvents, ∃ n, n < k ∧
    t.dncDaemonRef = some (TcpDncClient.reference (UInt64.ofNat n))
  distinct : ∀ t ∈ s.db.dncTransferEvents, ∀ u ∈ s.db.dncTransferEvents,
    t.dncDaemonRef = u.dncDaemonRef → t = u

variable {k : ℕ} {s : Station}

theorem numbered_unscheduled (db : Database) : Numbered 0 ⟨unscheduled db, .new⟩ :=
  ⟨rfl, fun _ ht => absurd ht (Table.notMem_empty _), fun _ ht => absurd ht (Table.notMem_empty _)⟩

theorem Numbered.unshared (h : Numbered k s) (a : Action) : Unshared s a := by
  cases a with
  | schedule socket now id r => trivial
  | restart => trivial
  | event now id transferId outcome =>
      intro t ht _ u hu huref _
      exact Or.inl (h.distinct u hu t (Table.lookup_eq_some.mp ht).1 huref)

theorem Numbered.insert {row : TransferRow} {transfers : Table TransferRow} (h : Numbered k s)
    (hk : k < UInt64.size) (hins : s.db.dncTransferEvents.insert? row = some transfers)
    (href : row.dncDaemonRef = some (TcpDncClient.reference s.dnc.counter)) :
    Numbered (k + 1) ⟨{ s.db with dncTransferEvents := transfers }, ⟨s.dnc.counter + 1⟩⟩ := by
  have hnew (t : TransferRow) (ht : t ∈ s.db.dncTransferEvents) :
      t.dncDaemonRef ≠ row.dncDaemonRef := by
    intro heq
    obtain ⟨n, hn, ht⟩ := h.below t ht
    rw [ht, href, h.counter, Option.some.injEq] at heq
    have hsame := TcpDncClient.reference_ofNat_inj (by omega) hk heq
    omega
  refine ⟨?_, ?_, ?_⟩
  · rw [h.counter, UInt64.ofNat_add]
    rfl
  · intro t ht
    rcases (Table.mem_insert? hins).mp ht with ht | rfl
    · obtain ⟨n, hn, ht⟩ := h.below t ht
      exact ⟨n, by omega, ht⟩
    · exact ⟨k, by omega, href.trans (by rw [h.counter])⟩
  · intro t ht u hu heq
    rcases (Table.mem_insert? hins).mp ht with ht | rfl
    · rcases (Table.mem_insert? hins).mp hu with hu | rfl
      · exact h.distinct t ht u hu heq
      · exact absurd heq (hnew t ht)
    · rcases (Table.mem_insert? hins).mp hu with hu | rfl
      · exact absurd heq.symm (hnew u hu)
      · rfl

/-- A write that keeps the references keeps them distinct. -/
theorem Numbered.put {t t' : TransferRow} (h : Numbered k s) (ht : t ∈ s.db.dncTransferEvents)
    (hid : t'.id = t.id) (href : t'.dncDaemonRef = t.dncDaemonRef) :
    Numbered k
      { s with db := { s.db with dncTransferEvents := s.db.dncTransferEvents.put t' } } := by
  have hother (u : TransferRow) (hu : u ∈ s.db.dncTransferEvents) (hne : u.id ≠ t'.id) :
      u.dncDaemonRef ≠ t'.dncDaemonRef := by
    intro heq
    exact hne (by rw [hid, h.distinct u hu t ht (heq.trans href)])
  refine ⟨h.counter, ?_, ?_⟩
  · intro u hu
    rcases Table.mem_put.mp hu with rfl | ⟨hu, -⟩
    · rw [href]
      exact h.below t ht
    · exact h.below u hu
  · intro u hu v hv heq
    rcases Table.mem_put.mp hu with rfl | ⟨hold, hune⟩
    · rcases Table.mem_put.mp hv with rfl | ⟨hvold, hvne⟩
      · rfl
      · exact absurd heq.symm (hother v hvold hvne)
    · rcases Table.mem_put.mp hv with rfl | ⟨hvold, -⟩
      · exact absurd heq (hother u hold hune)
      · exact h.distinct u hold v hvold heq

theorem Numbered.step {a : Action} (h : Numbered k s) (hk : k < UInt64.size) (ha : a ≠ .restart) :
    Numbered k (s.step a) ∨ Numbered (k + 1) (s.step a) := by
  cases a with
  | restart => exact absurd rfl ha
  | schedule socket now id r =>
      rcases scheduleTransfer_cases s.db s.dnc socket now id r with
        hsame | ⟨hdnc, hdb | ⟨row, transfers, hins, href, -, hdb⟩⟩
      · refine Or.inl ?_
        simp only [Station.step, hsame]
        exact h
      · refine Or.inr ?_
        simp only [Station.step, hdnc, hdb]
        refine ⟨?_, ?_, h.distinct⟩
        · rw [h.counter, UInt64.ofNat_add]
          rfl
        · intro t ht
          obtain ⟨n, hn, ht⟩ := h.below t ht
          exact ⟨n, by omega, ht⟩
      · refine Or.inr ?_
        simp only [Station.step, hdnc, hdb]
        exact h.insert hk hins href
  | event now id transferId outcome =>
      refine Or.inl ?_
      cases href : referenceOf s.db transferId with
      | none =>
          simp only [Station.step, href]
          exact h
      | some ref =>
          simp only [Station.step, href, outcome.handle_event]
          rcases closeTransfer_cases s.db now ref outcome.status with
            ⟨-, hdb⟩ | ⟨t, hfind, hdb⟩
          · rw [hdb]
            exact h
          · rw [hdb]
            exact h.put (findOpenTransferByRef_some hfind).1 rfl rfl

theorem Numbered.along {run : List Action} (h : Numbered k s) (hk : k + run.length ≤ UInt64.size)
    (hrestart : .restart ∉ run) : Along Station.step Unshared s run := by
  induction run generalizing s k with
  | nil => trivial
  | cons a rest ih =>
      rw [List.length_cons] at hk
      have hne : a ≠ .restart := fun heq => hrestart (heq ▸ List.mem_cons_self)
      have hrest : Action.restart ∉ rest := fun hmem => hrestart (List.mem_cons_of_mem a hmem)
      refine ⟨h.unshared a, ?_⟩
      rcases h.step (by omega) hne with hnext | hnext
      · exact ih hnext (by omega) hrest
      · exact ih hnext (by omega) hrest

/-- A process that is not restarted never shares a reference. -/
theorem unshared_without_restart (db : Database) {run : List Action}
    (hrestart : .restart ∉ run) (hlength : run.length ≤ UInt64.size) :
    Along Station.step Unshared ⟨unscheduled db, .new⟩ run :=
  (numbered_unscheduled db).along (by omega) hrestart

end Numbered

/-- A plant with one program. -/
def programFloor : Database where
  programs := ⟨[⟨"prog", none, none, "O1000", none, 0⟩], by decide⟩

def sendProgram : TransferRequest := ⟨"prog", "O1000", none, none⟩

/-- The process is restarted between two transfers, and the first one completes. -/
def restartedRun : List Action :=
  [.schedule none 1 "t1" sendProgram, .restart, .schedule none 2 "t2" sendProgram,
    .event 3 "" "t1" .completed]

/-- The completion of the first transfer closes the second. -/
theorem restartedRun_closes_other :
    ¬ Along Station.step ClosesOwn ⟨programFloor, .new⟩ restartedRun ∧
      let final := restartedRun.foldl Station.step ⟨programFloor, .new⟩
      transferStatus final.db "t1" = some "scheduled" ∧
        transferStatus final.db "t2" = some "completed" := by
  refine ⟨?_, by decide +kernel⟩
  rintro ⟨-, -, -, hevent, -⟩
  have hlookup : ∃ t ∈ (((restartedRun.take 3).foldl Station.step
      ⟨programFloor, .new⟩).db.dncTransferEvents.lookup "t1"),
        t.dncDaemonRef.isSome ∧ t.IsOpen := by
    decide +kernel
  obtain ⟨t, ht, hsome, -⟩ := hlookup
  have hother := hevent t ht hsome "t2"
  rw [if_neg (fun h => absurd h.1 (by decide))] at hother
  exact absurd hother (by decide +kernel)

/-- Both transfers are scheduled by one process. -/
def steadyRun : List Action :=
  [.schedule none 1 "t1" sendProgram, .schedule none 2 "t2" sendProgram,
    .event 3 "" "t1" .completed, .event 4 "" "t1" (.failed "timeout")]

theorem events_close_own_transfer_steadyRun :
    Along Station.step ClosesOwn ⟨programFloor, .new⟩ steadyRun ∧
      let final := steadyRun.foldl Station.step ⟨programFloor, .new⟩
      transferStatus final.db "t1" = some "completed" ∧
        transferStatus final.db "t2" = some "scheduled" :=
  ⟨(events_close_own_transfer ⟨programFloor, .new⟩ steadyRun).1 (by decide +kernel),
    by decide +kernel⟩

end ElectronixMes.Programs
