import ElectronixMes.Edge.Live

/-!
# What the feed is about

A view of a database: the status of every order and transfer, and the progress of every
operation. A change takes a view to the next one and says which events announce it. Over any
number of changes, a mirror that starts from a view and applies the events shows the present;
it needs no word of orders and operations that are new, as these start from known statuses.
-/

namespace ElectronixMes.Feed

open Db ElectronixMes.Core Edge Relational

/-- How far an operation is. -/
structure Progress where
  status : String
  good : Int
  scrap : Int
  deriving DecidableEq

/-- The operation in its next status. -/
def Progress.moved (target : OpStatus) (p : Progress) : Progress :=
  { p with status := target.asStr }

def Progress.counted (good scrap : Int32) (p : Progress) : Progress :=
  { p with good := p.good + good.toInt, scrap := p.scrap + scrap.toInt }

/-- What is stored under an id; `parents` are the orders of operations. -/
structure View where
  orders : String → Option String
  operations : String → Option Progress
  parents : String → Option String
  transfers : String → Option String

/-- The progress of a stored operation. -/
def progressOf (r : WoOperationRow) : Progress := ⟨r.status, r.qtyGood.toInt, r.qtyScrap.toInt⟩

/-- A new operation. -/
def untouched : Progress := ⟨"pending", 0, 0⟩

def viewOf (db : Database) : View where
  orders id := (db.workOrders.lookup id).map WorkOrderRow.status
  operations id := (db.woOperations.lookup id).map progressOf
  parents id := (db.woOperations.lookup id).map WoOperationRow.workOrderId
  transfers := transferStatus db

/-- Every operation belongs to a stored order. -/
def Parented (v : View) : Prop :=
  ∀ opId workOrderId, v.parents opId = some workOrderId → (v.orders workOrderId).isSome

/-- An event that announces nothing of a view. -/
def Elsewhere : WsEvent → Prop
  | .downtimeClassified _ _ => True
  | .programRevisionDrafted _ _ => True
  | .oeeSnapshot _ _ _ _ _ => True
  | .ncrRaised _ _ _ => True
  | _ => False

/-- One change of a view, with the events that are published for it. -/
inductive Change : View → List WsEvent → View → Prop where
  | elsewhere {v : View} {events : List WsEvent} (h : ∀ e ∈ events, Elsewhere e) :
      Change v events v
  | created {v v' : View}
      (orders : ∀ id, v'.orders id = v.orders id ∨
        v.orders id = none ∧ v'.orders id = some "draft")
      (operations : ∀ id, v'.operations id = v.operations id ∨
        v.operations id = none ∧ v'.operations id = some untouched)
      (parents : ∀ id, v'.parents id = v.parents id ∨
        ∀ workOrderId, v'.parents id = some workOrderId → (v'.orders workOrderId).isSome)
      (transfers : v'.transfers = v.transfers) : Change v [] v'
  | moved {v : View} {id status : String} :
      Change v [.workOrderStatusChanged id status]
        { v with orders := Function.update v.orders id (some status) }
  | started {v : View} {workOrderId opId : String} {p : Progress}
      (h : v.operations opId = some p) :
      Change v [.operationStarted workOrderId opId]
        { v with
          operations := Function.update v.operations opId
            (some (p.moved .inProgress)) }
  | completed {v : View} {workOrderId opId : String} {p : Progress}
      (h : v.operations opId = some p) :
      Change v [.operationCompleted workOrderId opId]
        { v with
          operations := Function.update v.operations opId
            (some (p.moved .completed)) }
  | counted {v : View} {opId : String} {p : Progress} {good scrap : Int32}
      (h : v.operations opId = some p) :
      Change v [.countRecorded opId good scrap]
        { v with
          operations := Function.update v.operations opId
            (some (p.counted good scrap)) }
  | scheduled {v : View} {id programId programIdentifier : String} {opId : Option String}
      (h : v.transfers id = none) :
      Change v [.dncTransferScheduled id programId programIdentifier opId]
        { v with transfers := Function.update v.transfers id (some "scheduled") }
  | transferred {v : View} {id status : String} (h : v.transfers id = some status) :
      Change v [.dncTransferCompleted id]
        { v with transfers := Function.update v.transfers id (some "completed") }
  | failed {v : View} {id status : String} (h : v.transfers id = some status)
      (hopen : status ≠ "completed") :
      Change v [] { v with transfers := Function.update v.transfers id (some "failed") }

/-- Changes one after the other. -/
inductive Changes (v : View) : List WsEvent → View → Prop where
  | refl : Changes v [] v
  | snoc {events more : List WsEvent} {w w' : View} (h : Changes v events w)
      (change : Change w more w') : Changes v (events ++ more) w'

theorem Change.changes {v w : View} {events : List WsEvent} (h : Change v events w) :
    Changes v events w :=
  Changes.snoc .refl h

theorem Changes.trans {v w u : View} {events more : List WsEvent} (h : Changes v events w)
    (hmore : Changes w more u) : Changes v (events ++ more) u := by
  induction hmore with
  | refl =>
      rw [List.append_nil]
      exact h
  | snoc _ change ih =>
      rw [← List.append_assoc]
      exact ih.snoc change

/-- Orders stay stored, and a new operation belongs to one. -/
theorem Change.parented {v w : View} {events : List WsEvent} (h : Change v events w)
    (hparented : Parented v) : Parented w := by
  have hstored {id : String} (status : String) {k : String} (hk : (v.orders k).isSome) :
      (Function.update v.orders id (some status) k).isSome := by
    by_cases heq : k = id
    · simp [heq]
    · simpa [heq] using hk
  cases h with
  | elsewhere => exact hparented
  | created orders operations parents =>
      intro opId workOrderId hopId
      rcases parents opId with hsame | hnew
      · have hold := hparented opId workOrderId (hsame ▸ hopId)
        rcases orders workOrderId with hkept | ⟨hnone, -⟩
        · rw [hkept]
          exact hold
        · rw [hnone] at hold
          cases hold
      · exact hnew workOrderId hopId
  | moved => exact fun opId workOrderId hopId => hstored _ (hparented opId workOrderId hopId)
  | started | completed | counted | scheduled | transferred | failed => exact hparented

theorem Changes.parented {v w : View} {events : List WsEvent} (h : Changes v events w)
    (hparented : Parented v) : Parented w := by
  induction h with
  | refl => exact hparented
  | snoc _ change ih => exact change.parented ih

/-! ## A mirror -/

/-- What a dashboard keeps: a status for every order and the progress of every operation. -/
structure Mirror where
  orders : String → String
  operations : String → Progress

/-- What a mirror shows of a view; an order or operation that it never heard of is new. -/
def View.shown (v : View) : Mirror where
  orders id := (v.orders id).getD "draft"
  operations id := (v.operations id).getD untouched

/-- Change what is shown for one operation. -/
def Mirror.progress (m : Mirror) (opId : String) (f : Progress → Progress) : Mirror :=
  { m with operations := Function.update m.operations opId (f (m.operations opId)) }

def Mirror.apply (m : Mirror) : WsEvent → Mirror
  | .workOrderStatusChanged id status => { m with orders := Function.update m.orders id status }
  | .operationStarted _ opId => m.progress opId (Progress.moved .inProgress)
  | .operationCompleted _ opId => m.progress opId (Progress.moved .completed)
  | .countRecorded opId good scrap => m.progress opId (Progress.counted good scrap)
  | _ => m

section Mirror

variable {v w : View} {events : List WsEvent}

theorem apply_elsewhere {e : WsEvent} (h : Elsewhere e) (m : Mirror) : m.apply e = m := by
  cases e with
  | downtimeClassified | programRevisionDrafted | oeeSnapshot | ncrRaised => rfl
  | workOrderStatusChanged | operationStarted | operationCompleted | countRecorded
  | dncTransferScheduled | dncTransferCompleted => exact h.elim

theorem foldl_elsewhere (h : ∀ e ∈ events, Elsewhere e) (m : Mirror) :
    events.foldl Mirror.apply m = m := by
  induction events with
  | nil => rfl
  | cons e rest ih =>
      rw [List.foldl_cons, apply_elsewhere (h e List.mem_cons_self)]
      exact ih fun e he => h e (List.mem_cons_of_mem _ he)

/-- A write of one operation, seen in the mirror. -/
theorem shown_progress {opId : String} {p : Progress} (h : v.operations opId = some p)
    (f : Progress → Progress) :
    ({ v with operations := Function.update v.operations opId (some (f p)) } : View).shown =
      v.shown.progress opId f := by
  have hoperations : (fun id => ((Function.update v.operations opId (some (f p))) id).getD
      untouched) = Function.update v.shown.operations opId (f (v.shown.operations opId)) := by
    funext id
    by_cases hid : id = opId
    · subst hid
      simp [View.shown, h]
    · simp [View.shown, hid]
  rw [View.shown, Mirror.progress, ← hoperations]
  rfl

/-- The events of a change change the mirror the same way. -/
theorem Change.shown (h : Change v events w) : events.foldl Mirror.apply v.shown = w.shown := by
  cases h with
  | elsewhere h => exact foldl_elsewhere h _
  | created orders operations _ _ =>
      have horders : w.shown.orders = v.shown.orders := by
        funext id
        rcases orders id with hsame | ⟨hnone, hdraft⟩
        · simp [View.shown, hsame]
        · simp [View.shown, hnone, hdraft]
      have hoperations : w.shown.operations = v.shown.operations := by
        funext id
        rcases operations id with hsame | ⟨hnone, hnew⟩
        · simp [View.shown, hsame]
        · simp [View.shown, hnone, hnew]
      rw [List.foldl_nil]
      exact (congrArg₂ Mirror.mk horders hoperations).symm
  | @moved id status =>
      have horders : (fun k => ((Function.update v.orders id (some status)) k).getD "draft") =
          Function.update v.shown.orders id status := by
        funext k
        by_cases hk : k = id
        · simp [hk]
        · simp [View.shown, hk]
      rw [List.foldl_cons, List.foldl_nil, Mirror.apply, ← horders]
      rfl
  | started h => exact (shown_progress h (Progress.moved .inProgress)).symm
  | completed h => exact (shown_progress h (Progress.moved .completed)).symm
  | counted h => exact (shown_progress h (Progress.counted _ _)).symm
  | scheduled _ => rfl
  | transferred _ => rfl
  | failed _ _ => rfl

/-- Over any number of changes the mirror stays true. -/
theorem Changes.shown (h : Changes v events w) : events.foldl Mirror.apply v.shown = w.shown := by
  induction h with
  | refl => rfl
  | snoc _ change ih => rw [List.foldl_append, ih, change.shown]

end Mirror

end ElectronixMes.Feed
