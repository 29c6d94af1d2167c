import ElectronixMes.Edge.Exec
import ElectronixMes.Transition.Run

/-!
# Release and execution

Serial runs of the order and execution endpoints. The two lifecycles are coupled
in one place only: the start of an operation advances an order that it finds
released. An operation of a draft order can be started too, and its order is then
never advanced by it; in every run without such a start, execution stays behind
the release.
-/

namespace ElectronixMes.Execution

open Db ElectronixMes.Core Edge Relational Serde Transition

/-- One call of an endpoint. -/
inductive Endpoint where
  | create (c : Codec) (now : Int) (ids : ℕ → String) (input : WorkOrderInput)
  | release (now : Int) (id : String)
  | cancel (now : Int) (id : String)
  | close (now : Int) (id : String)
  | startOp (now : Int) (opId : String)
  | recordCount (now : Int) (id opId : String) (input : CountInput)
  | completeOp (now : Int) (opId : String)
  | completeWo (now : Int) (id : String)

def serve (db : Database) : Endpoint → Database
  | .create c now ids input =>
      match createWorkOrder c db now ids input with
      | .error _ => db
      | .ok (db, _) => db
  | .release now id => (releaseOrder db now id).1
  | .cancel now id => (cancelOrder db now id).1
  | .close now id => (closeOrder db now id).1
  | .startOp now opId => (Edge.startOp db now opId).1
  | .recordCount now id opId input => (Edge.recordCount db now id opId input).1
  | .completeOp now opId => (Edge.completeOp db now opId).1
  | .completeWo now id => (Edge.completeWo db now id).1

/-- A database without orders. -/
def unordered (db : Database) : Database := { db with workOrders := ∅, woOperations := ∅ }

/-- The call does not start an operation of a draft order. -/
def NoDraftStart (db : Database) : Endpoint → Prop
  | .startOp _ opId => ∀ op ∈ db.woOperations.lookup opId,
      ∀ wo ∈ db.workOrders.lookup op.workOrderId, wo.status ≠ "draft"
  | _ => True

instance (db : Database) : (e : Endpoint) → Decidable (NoDraftStart db e)
  | .startOp _ opId => inferInstanceAs (Decidable (∀ op ∈ db.woOperations.lookup opId,
      ∀ wo ∈ db.workOrders.lookup op.workOrderId, wo.status ≠ "draft"))
  | .create _ _ _ _ => inferInstanceAs (Decidable True)
  | .release _ _ => inferInstanceAs (Decidable True)
  | .cancel _ _ => inferInstanceAs (Decidable True)
  | .close _ _ => inferInstanceAs (Decidable True)
  | .recordCount _ _ _ _ => inferInstanceAs (Decidable True)
  | .completeOp _ _ => inferInstanceAs (Decidable True)
  | .completeWo _ _ => inferInstanceAs (Decidable True)

/-- An order whose execution may have begun, by its status. -/
def Executing (status : String) : Prop :=
  ∃ s, WoStatus.parse status = some s ∧ s ≠ .draft ∧ s ≠ .released

/-- Every operation belongs to a stored order; orders carry a status of the
lifecycle; and an operation that is not pending belongs to an executing order. -/
structure Released (db : Database) : Prop where
  parent : ∀ o ∈ db.woOperations, ∃ wo ∈ db.workOrders, wo.id = o.workOrderId
  known : ∀ wo ∈ db.workOrders, ∃ s : WoStatus, wo.status = s.asStr
  behind : ∀ o ∈ db.woOperations, o.status ≠ "pending" →
    ∀ wo ∈ db.workOrders, wo.id = o.workOrderId → Executing wo.status

section Steps

variable {db : Database}

theorem executing_asStr {s : WoStatus} : Executing s.asStr ↔ s ≠ .draft ∧ s ≠ .released := by
  simp [Executing]

/-- Execution, once begun, is not undone by a transition. -/
theorem Executing.transition {status : String} (h : Executing status) {current target : WoStatus}
    (hparse : WoStatus.parse status = some current)
    (hcan : current.canTransition target = true) : Executing target.asStr := by
  obtain ⟨s, hs, hdraft, hreleased⟩ := h
  rw [hparse, Option.some.injEq] at hs
  subst hs
  rw [executing_asStr]
  cases current <;> cases target <;> simp_all [WoStatus.canTransition]

theorem released_unordered (db : Database) : Released (unordered db) where
  parent o ho := absurd ho (Table.notMem_empty o)
  known wo hwo := absurd hwo (Table.notMem_empty wo)
  behind o ho := absurd ho (Table.notMem_empty o)

/-- Writing a status that keeps execution going keeps the invariant. -/
theorem Released.put_order (h : Released db) {old : WorkOrderRow} {id : String}
    (hold : db.workOrders.lookup id = some old) (target : WoStatus) (now : Int)
    (hexec : (∃ o ∈ db.woOperations, o.workOrderId = id ∧ o.status ≠ "pending") →
      Executing target.asStr) :
    Released { db with workOrders := db.workOrders.put (old.withStatus target.asStr now) } := by
  obtain ⟨hmem, hid⟩ := Table.lookup_eq_some.mp hold
  refine ⟨?_, ?_, ?_⟩
  · intro o ho
    obtain ⟨wo, hwo, hwid⟩ := h.parent o ho
    by_cases heq : wo.id = old.id
    · exact ⟨_, Table.mem_put_self _ _, heq.symm.trans hwid⟩
    · exact ⟨wo, Table.mem_put.mpr (Or.inr ⟨hwo, heq⟩), hwid⟩
  · intro wo hwo
    rcases Table.mem_put.mp hwo with rfl | ⟨hwo, -⟩
    · exact ⟨target, rfl⟩
    · exact h.known wo hwo
  · intro o ho hstatus wo hwo hwid
    rcases Table.mem_put.mp hwo with rfl | ⟨hwo, -⟩
    · exact hexec ⟨o, ho, hwid.symm.trans hid, hstatus⟩
    · exact h.behind o ho hstatus wo hwo hwid

/-- Writing an operation keeps the invariant when its order executes or the
operation stays pending. -/
theorem Released.put_operation (h : Released db) {old new : WoOperationRow} {opId : String}
    (hold : db.woOperations.lookup opId = some old) (hparent : new.workOrderId = old.workOrderId)
    (hexec : new.status ≠ "pending" →
      ∀ wo ∈ db.workOrders, wo.id = old.workOrderId → Executing wo.status) :
    Released { db with woOperations := db.woOperations.put new } := by
  obtain ⟨hmem, -⟩ := Table.lookup_eq_some.mp hold
  refine ⟨?_, h.known, ?_⟩
  · intro o ho
    rcases Table.mem_put.mp ho with rfl | ⟨ho, -⟩
    · rw [hparent]
      exact h.parent old hmem
    · exact h.parent o ho
  · intro o ho hstatus wo hwo hwid
    rcases Table.mem_put.mp ho with rfl | ⟨ho, -⟩
    · exact hexec hstatus wo hwo (hwid.trans hparent)
    · exact h.behind o ho hstatus wo hwo hwid

theorem Released.transition (h : Released db) (now : Int) (id : String) (target : WoStatus) :
    Released (transitionWo db now id target).1 := by
  rcases transitionWo_cases db now id target with hsame | ⟨old, current, hold, hparse, hcan, heq⟩
  · rw [hsame]
    exact h
  · rw [heq]
    refine h.put_order hold target now ?_
    rintro ⟨o, ho, hoid, hstatus⟩
    obtain ⟨hmem, hid⟩ := Table.lookup_eq_some.mp hold
    exact (h.behind o ho hstatus old hmem (hid.trans hoid.symm)).transition hparse hcan

theorem Released.create (h : Released db) (c : Codec) (now : Int) (ids : ℕ → String)
    (input : WorkOrderInput) : Released (serve db (.create c now ids input)) := by
  simp only [serve]
  split
  · exact h
  · rename_i db' row hok
    obtain ⟨hrow, -, -, hins, -, -, -, -, -, hops⟩ := createWorkOrder_ok hok
    have horders (wo : WorkOrderRow) := Table.mem_insert? (s := wo) hins
    have hnew : ∀ wo ∈ db.workOrders, wo.id ≠ ids 0 := by
      intro wo hwo heq
      apply Table.key_ne_of_insert? hins wo hwo
      rw [hrow]
      exact heq
    have hrowid : row.id = ids 0 := congrArg WorkOrderRow.id hrow
    refine ⟨?_, ?_, ?_⟩
    · intro o ho
      rcases hops o ho with ho | hfresh
      · obtain ⟨wo, hwo, hwid⟩ := h.parent o ho
        exact ⟨wo, (horders wo).mpr (Or.inl hwo), hwid⟩
      · exact ⟨row, (horders row).mpr (Or.inr rfl), hrowid.trans hfresh.workOrderId.symm⟩
    · intro wo hwo
      rcases (horders wo).mp hwo with hwo | rfl
      · exact h.known wo hwo
      · exact ⟨.draft, congrArg WorkOrderRow.status hrow⟩
    · intro o ho hstatus wo hwo hwid
      rcases hops o ho with ho | hfresh
      · -- an old operation belongs to an old order, and the new order's id is new
        rcases (horders wo).mp hwo with hwo | rfl
        · exact h.behind o ho hstatus wo hwo hwid
        · obtain ⟨old, hold, hoid⟩ := h.parent o ho
          exact absurd (hoid.trans (hwid.symm.trans hrowid)) (hnew old hold)
      · exact absurd hfresh.status hstatus

theorem Released.start (h : Released db) (now : Int) (opId : String)
    (hstart : NoDraftStart db (.startOp now opId)) : Released (Edge.startOp db now opId).1 := by
  rcases startOp_cases db now opId with hsame | ⟨op, hop, -, hcases⟩
  · rw [hsame]
    exact h
  · obtain ⟨hmem, -⟩ := Table.lookup_eq_some.mp hop
    obtain ⟨wo, hwo, hwid⟩ := h.parent op hmem
    have hlookup : db.workOrders.lookup op.workOrderId = some wo := by
      rw [← hwid]
      exact Table.lookup_of_mem hwo
    have honly : ∀ wo' ∈ db.workOrders, wo'.id = op.workOrderId → wo' = wo :=
      fun wo' hwo' hid => Table.eq_of_key_eq hwo' hwo (hid.trans hwid.symm)
    obtain ⟨s, hs⟩ := h.known wo hwo
    have hdraft : s ≠ .draft := by
      rintro rfl
      exact hstart op hop wo hlookup hs
    have hparse : WoStatus.parse wo.status = some s := by
      rw [hs]
      exact WoStatus.parse_asStr s
    rcases hcases with ⟨hnot, heq⟩ | ⟨wo', hwo', -, heq⟩
    · -- the order was past its release, so it executes already
      rw [heq]
      refine h.put_operation hop rfl ?_
      intro _ wo' hwo' hid
      rw [honly wo' hwo' hid, hs, executing_asStr]
      refine ⟨hdraft, ?_⟩
      rintro rfl
      exact hnot wo hlookup hparse
    · -- the order's write makes it an executing one, which the operation's needs
      rw [heq]
      have hexec : Executing WoStatus.inProgress.asStr := executing_asStr.mpr ⟨nofun, nofun⟩
      have horder := h.put_order hwo' .inProgress now fun _ => hexec
      refine horder.put_operation hop rfl ?_
      intro _ wo'' hwo'' hid
      rcases Table.mem_put.mp hwo'' with rfl | ⟨-, hne⟩
      · exact hexec
      · exact absurd (hid.trans (Table.lookup_eq_some.mp hwo').2.symm) hne

theorem Released.step (h : Released db) {e : Endpoint} (he : NoDraftStart db e) :
    Released (serve db e) := by
  cases e with
  | create c now ids input => exact h.create c now ids input
  | release now id => exact h.transition now id .released
  | cancel now id => exact h.transition now id .cancelled
  | close now id => exact h.transition now id .closed
  | startOp now opId => exact h.start now opId he
  | recordCount now id opId input =>
      rcases recordCount_cases db now id opId input with
        hsame | ⟨op, wcId, op', counts, hop, -, -, -, hadd, heq⟩
      · rw [serve, hsame]
        exact h
      · obtain ⟨hframe, -, -⟩ := addCount_ok hadd
        obtain ⟨hmem, -⟩ := Table.lookup_eq_some.mp hop
        have hput : Released { db with woOperations := db.woOperations.put op' } := by
          refine h.put_operation hop (by rw [hframe]) ?_
          intro hstatus wo hwo hwid
          rw [hframe] at hstatus
          exact h.behind op hmem hstatus wo hwo hwid
        rw [serve, heq]
        exact ⟨hput.parent, hput.known, hput.behind⟩
  | completeOp now opId =>
      rcases completeOp_cases db now opId with hsame | ⟨op, hop, hparse, heq⟩
      · rw [serve, hsame]
        exact h
      · obtain ⟨hmem, -⟩ := Table.lookup_eq_some.mp hop
        rw [serve, heq]
        refine h.put_operation hop rfl ?_
        intro _ wo hwo hwid
        refine h.behind op hmem ?_ wo hwo hwid
        intro hpending
        rw [hpending] at hparse
        cases hparse
  | completeWo now id => exact h.transition now id .completed

end Steps

/-- The order has operations, and all are completed. -/
def AllCompleted (db : Database) (woId : String) : Prop :=
  (∃ o ∈ db.woOperations, o.workOrderId = woId) ∧
    ∀ o ∈ db.woOperations, o.workOrderId = woId → o.status = "completed"

/-- In every run that starts no operation of a draft order, an order with an
operation in progress or completed is neither draft nor released; and an order
that is not cancelled and all of whose operations are completed is completed or
closed already, or can be completed. -/
theorem execution_behind_release (db : Database) (run : List Endpoint)
    (hrun : Along serve NoDraftStart (unordered db) run) :
    let s := run.foldl serve (unordered db)
    (∀ o ∈ s.woOperations, o.status = "in_progress" ∨ o.status = "completed" →
      ∀ wo ∈ s.workOrders, wo.id = o.workOrderId →
        wo.status ≠ "draft" ∧ wo.status ≠ "released") ∧
    ∀ wo ∈ s.workOrders, wo.status ≠ "cancelled" → AllCompleted s wo.id → ∀ now,
      wo.status = "completed" ∨ wo.status = "closed" ∨
        completeWo s now wo.id =
          ({ s with workOrders := s.workOrders.put (wo.withStatus "completed" now) },
            .ok (wo.withStatus "completed" now)) := by
  intro s
  have h : Released s := hrun.invariant (fun _ _ h he => h.step he) (released_unordered db)
  refine ⟨?_, ?_⟩
  · intro o ho hstatus wo hwo hwid
    have hne : o.status ≠ "pending" := by
      rintro hpending
      rw [hpending] at hstatus
      exact absurd hstatus (by decide)
    obtain ⟨st, hst, hdraft, hreleased⟩ := h.behind o ho hne wo hwo hwid
    refine ⟨?_, ?_⟩
    · intro heq
      rw [heq] at hst
      exact hdraft (Option.some.inj hst).symm
    · intro heq
      rw [heq] at hst
      exact hreleased (Option.some.inj hst).symm
  · rintro wo hwo hcancelled ⟨⟨o, ho, hoid⟩, hall⟩ now
    have hne : o.status ≠ "pending" := by
      rw [hall o ho hoid]
      decide
    have hexec := h.behind o ho hne wo hwo hoid.symm
    obtain ⟨st, hst⟩ := h.known wo hwo
    rw [hst, executing_asStr] at hexec
    have hlookup : s.workOrders.lookup wo.id = some wo := Table.lookup_of_mem hwo
    cases st with
    | draft => exact absurd rfl hexec.1
    | released => exact absurd rfl hexec.2
    | cancelled => exact absurd hst hcancelled
    | completed => exact Or.inl hst
    | closed => exact Or.inr (Or.inl hst)
    | inProgress =>
        refine Or.inr (Or.inr ?_)
        simp only [completeWo, transitionWo, getWorkOrder, setWorkOrderStatus, hlookup, hst,
          WoStatus.parse_asStr, WoStatus.canTransition, if_true]
        rfl

/-- One part and one work center. -/
def partFloor : Database where
  parts := {"p"}
  workCenters := ⟨[{ id := "press" }], List.nodup_singleton _⟩

/-- An order with one operation at the press. -/
def oneOperation : WorkOrderInput where
  woNumber := "WO-1"
  partId := "p"
  routingId := none
  qtyOrdered := ⟨10, 0⟩
  priority := none
  plannedStart := none
  plannedEnd := none
  operations := [⟨10, none, some "press"⟩]

def runIds (i : ℕ) : String := String.ofList (List.replicate (i + 1) 'x')

/-- The operation is started and completed before the order is released. -/
def draftStart : List Endpoint :=
  [.create .sample 0 runIds oneOperation, .startOp 1 "xx", .completeOp 2 "xx",
    .release 3 "x"]

def draftRow : WorkOrderRow :=
  ⟨"x", "WO-1", "p", none, ⟨10, 0⟩, 100, "draft", none, none, none, 0, 0⟩

/-- The order stays behind its operation and can never be completed. -/
theorem draftStart_strands_order :
    (∃ o ∈ ((draftStart.take 2).foldl serve (unordered partFloor)).woOperations,
      o.status = "in_progress" ∧
      ∃ wo ∈ ((draftStart.take 2).foldl serve (unordered partFloor)).workOrders,
        wo.id = o.workOrderId ∧ wo.status = "draft") ∧
    ∃ wo ∈ (draftStart.foldl serve (unordered partFloor)).workOrders,
      wo.status = "released" ∧ AllCompleted (draftStart.foldl serve (unordered partFloor)) wo.id ∧
      ∀ now, completeWo (draftStart.foldl serve (unordered partFloor)) now wo.id =
        (draftStart.foldl serve (unordered partFloor), .error ⟨409, "invalid_transition",
          "cannot move work order from released to completed"⟩) := by
  refine ⟨⟨⟨"xx", "x", none, 10, some "press", "in_progress", 0, 0, some 1, none⟩,
      by decide +kernel, rfl, draftRow, by decide +kernel, rfl, rfl⟩,
    draftRow.withStatus "released" 3, by decide +kernel, rfl, ?_, ?_⟩
  · have hops : (∃ o ∈ (draftStart.foldl serve (unordered partFloor)).woOperations.rows,
        o.workOrderId = "x") ∧
        ∀ o ∈ (draftStart.foldl serve (unordered partFloor)).woOperations.rows,
          o.workOrderId = "x" → o.status = "completed" := by decide +kernel
    exact hops
  · intro now
    have hlookup : (draftStart.foldl serve (unordered partFloor)).workOrders.lookup "x" =
        some (draftRow.withStatus "released" 3) := by decide +kernel
    have hid : (draftRow.withStatus "released" 3).id = "x" := rfl
    simp only [completeWo, transitionWo, getWorkOrder, hid, hlookup]
    rfl

/-- The same work after the release. -/
def releasedStart : List Endpoint :=
  [.create .sample 0 runIds oneOperation, .release 1 "x", .startOp 2 "xx", .completeOp 3 "xx"]

theorem execution_behind_release_releasedStart :
    Along serve NoDraftStart (unordered partFloor) releasedStart ∧
      ∀ o ∈ (releasedStart.foldl serve (unordered partFloor)).woOperations,
        o.status = "in_progress" ∨ o.status = "completed" →
        ∀ wo ∈ (releasedStart.foldl serve (unordered partFloor)).workOrders,
          wo.id = o.workOrderId → wo.status ≠ "draft" ∧ wo.status ≠ "released" := by
  have hrun : Along serve NoDraftStart (unordered partFloor) releasedStart := by decide +kernel
  exact ⟨hrun, (execution_behind_release partFloor releasedStart hrun).1⟩

end ElectronixMes.Execution
