import ElectronixMes.Sync.Convergence
import ElectronixMes.Transition.Transaction
import ElectronixMes.Cloud.Sync

/-!
# Orders created and applied

Creating an order is one transaction whose statements may fail one by one; its
entry carries the order as the row has it. Applying an entry inserts the row or
updates it, and the update leaves the part and the routing as they are.
-/

namespace ElectronixMes.Sync

open Db ElectronixMes.Core Relational Serde Transition Cloud

section Apply

variable {c : Codec} {db db' : Database} {now : Int} {entry : SyncEntry}
  {plantId : Option String}

/-- The row has every field that the payload carries. -/
structure Carried (wo : WoPayload) (r : WorkOrderRow) : Prop where
  woNumber : r.woNumber = wo.woNumber
  partId : r.partId = wo.partId
  routingId : r.routingId = wo.routingId
  qtyOrdered : r.qtyOrdered = wo.qtyOrdered
  priority : r.priority = wo.priority
  status : r.status = wo.status
  plannedStart : r.plannedStart = wo.plannedStart
  plannedEnd : r.plannedEnd = wo.plannedEnd

/-- The row with the payload's id carries the payload and the plant that pushed it, and
every other row is as it was. -/
structure Faithful (wo : WoPayload) (plantId : Option String) (db db' : Database) : Prop where
  row : ∃ r, db'.workOrders.lookup wo.id = some r ∧ Carried wo r ∧
    r.plantId = (plantId <|> (db.workOrders.lookup wo.id).bind WorkOrderRow.plantId)
  others : ∀ id, id ≠ wo.id → db'.workOrders.lookup id = db.workOrders.lookup id

/-- The stored order, if there is one, is of the payload's part and routing. -/
def SameRoute (wo : WoPayload) (db : Database) : Prop :=
  ∀ old, db.workOrders.lookup wo.id = some old →
    old.partId = wo.partId ∧ old.routingId = wo.routingId

/-- An entry of an order that is newly applied writes the upsert of its payload. -/
theorem applyEntry_writes (hagg : entry.aggregate = "work_order")
    (h : applyEntry c db now entry plantId = .ok (db', true)) :
    ∃ wo r, entryOrder c entry = some wo ∧ Upserted db now wo plantId r ∧
      db'.workOrders = db.workOrders.put r := by
  obtain ⟨-, row, hwrite, rfl⟩ := applyEntry_true h
  unfold entryWrite at hwrite
  rw [if_pos hagg] at hwrite
  split at hwrite
  · cases hwrite
  · rename_i wo hpayload
    split at hwrite
    · cases hwrite
    · rename_i r hupsert
      cases hwrite
      exact ⟨wo, r, by rw [entryOrder, if_pos hagg, hpayload], upsertRow_ok hupsert, rfl⟩

theorem Carried.of_upserted {wo : WoPayload} {r : WorkOrderRow}
    (h : Upserted db now wo plantId r) (hpart : r.partId = wo.partId)
    (hrouting : r.routingId = wo.routingId) : Carried wo r where
  woNumber := h.woNumber
  partId := hpart
  routingId := hrouting
  qtyOrdered := h.qtyOrdered
  priority := h.priority
  status := h.status
  plannedStart := h.plannedStart
  plannedEnd := h.plannedEnd

/-- A written row is faithful exactly when it has the payload's part and routing. -/
theorem faithful_iff_of_put {wo : WoPayload} {r : WorkOrderRow}
    (h : Upserted db now wo plantId r) (hput : db'.workOrders = db.workOrders.put r) :
    Faithful wo plantId db db' ↔ r.partId = wo.partId ∧ r.routingId = wo.routingId := by
  have hlookup : db'.workOrders.lookup wo.id = some r := by
    rw [hput, ← h.id]
    exact Table.lookup_put_self db.workOrders r
  have hplant : r.plantId =
      (plantId <|> (db.workOrders.lookup wo.id).bind WorkOrderRow.plantId) := by
    rcases h.kept with ⟨old, hold, hid, -, -, -, hplant⟩ | ⟨hnew, -, -, -, hplant⟩
    · rw [Table.lookup_eq_some.mpr ⟨hold, hid⟩, Option.bind_some, hplant]
    · rw [Table.lookup_eq_none.mpr hnew, Option.bind_none, hplant]
      cases plantId <;> rfl
  constructor
  · rintro ⟨⟨r', hr', hcarried, -⟩, -⟩
    obtain rfl : r = r' := Option.some.inj (hlookup.symm.trans hr')
    exact ⟨hcarried.partId, hcarried.routingId⟩
  · rintro ⟨hpart, hrouting⟩
    refine ⟨⟨r, hlookup, Carried.of_upserted h hpart hrouting, hplant⟩, ?_⟩
    intro id hid
    rw [hput]
    apply Table.lookup_put_of_ne
    rw [key_workOrder, h.id]
    exact hid

/-- A cloud whose order `wo` is of another part than the one that is pushed. -/
def rodCloud : Database :=
  { sampleCloud with
    parts := {"part", "rod"}
    workOrders := ⟨[orderRow 0 "wo" { sampleInput with partId := "rod" }], by decide⟩ }

end Apply

section Create

structure WorkOrderDetail where
  workOrder : WorkOrderRow
  operations : List WoOperationRow

/-- The row of an operation that is created with its order. -/
def operationRow (woId id : String) (op : WoOperationInput) : WoOperationRow where
  id := id
  workOrderId := woId
  routingOpId := op.routingOpId
  opNo := op.opNo
  workCenterId := op.workCenterId
  status := "pending"
  qtyGood := 0
  qtyScrap := 0
  startedAt := none
  completedAt := none

def operationRows (woId : String) (ids : ℕ → String) (ops : List WoOperationInput) :
    List WoOperationRow :=
  ops.mapIdx fun i op => operationRow woId (ids i) op

/-- The inserts of the operations, as the loop sends them. -/
def operationStatements (woId : String) (ids : ℕ → String) (ops : List WoOperationInput) :
    List (Database → Except RepoError Database) :=
  ops.mapIdx fun i op db => (insertOperation db woId (ids i) op).mapError mapSqlx

/-- The statements of a creation between `BEGIN` and `COMMIT`. -/
def createStatements (c : Codec) (now : Int) (ids : ℕ → String) (input : WorkOrderInput) :
    List (Database → Except RepoError Database) :=
  (fun db => (insertWorkOrder db (orderRow now (ids 0) input)).mapError mapSqlx) ::
    operationStatements (ids 0) (ids ∘ Nat.succ) input.operations ++
      [fun db => enqueue db (ids (input.operations.length + 1)) "work_order" (ids 0) "upsert"
        (orderPayload c (ids 0) input) none now]

/-- Create a work order, its operations and its entry, any statement of which may fail. -/
def createUnder (faults : Faults RepoError) (c : Codec) (db : Database) (now : Int)
    (ids : ℕ → String) (input : WorkOrderInput) : Database × Except RepoError WorkOrderDetail :=
  let res := transact faults db (createStatements c now ids input)
  (res.1, res.2.map fun _ =>
    ⟨orderRow now (ids 0) input, operationRows (ids 0) (ids ∘ Nat.succ) input.operations⟩)

variable {c : Codec} {db db' : Database} {now : Int} {ids : ℕ → String}

theorem insertOperation_rows {woId id : String} {op : WoOperationInput}
    (h : insertOperation db woId id op = .ok db') :
    db' = { db with woOperations := db'.woOperations } ∧
      db'.woOperations.rows = db.woOperations.rows ++ [operationRow woId id op] := by
  unfold insertOperation at h
  dsimp only at h
  split at h
  · cases h
  · rename_i woOperations hins
    split at h
    · cases h
    · repeat replace h := of_check h
      cases h
      exact ⟨rfl, Table.rows_insert? hins⟩

theorem mapError_eq_ok {ε ε' α : Type} {f : ε → ε'} {x : Except ε α} {a : α} :
    x.mapError f = .ok a ↔ x = .ok a := by
  cases x with
  | error e => simp [Except.mapError]
  | ok b => simp [Except.mapError]

theorem operationStatements_cons (woId : String) (ids : ℕ → String) (op : WoOperationInput)
    (rest : List WoOperationInput) :
    operationStatements woId ids (op :: rest) =
      (fun db => (insertOperation db woId (ids 0) op).mapError mapSqlx) ::
        operationStatements woId (ids ∘ Nat.succ) rest :=
  List.mapIdx_cons

/-- The inserts that all succeed add one pending operation each. -/
theorem operationStatements_ok {woId : String} {ops : List WoOperationInput} {n : ℕ}
    (h : runAll Faults.never n db (operationStatements woId ids ops) = .ok db') :
    db' = { db with woOperations := db'.woOperations } ∧
      db'.woOperations.rows = db.woOperations.rows ++ operationRows woId ids ops := by
  induction ops generalizing db ids n with
  | nil =>
      cases h
      exact ⟨rfl, (List.append_nil _).symm⟩
  | cons op rest ih =>
      rw [operationStatements_cons, runAll, Faults.send_never] at h
      cases hins : (insertOperation db woId (ids 0) op).mapError mapSqlx with
      | error e =>
          rw [hins] at h
          cases h
      | ok mid =>
          rw [hins] at h
          obtain ⟨hframe, hrows⟩ := insertOperation_rows (mapError_eq_ok.mp hins)
          obtain ⟨hframe', hrows'⟩ := ih h
          rw [hframe] at hframe'
          refine ⟨hframe', ?_⟩
          rw [hrows', hrows, List.append_assoc]
          rw [operationRows, operationRows, List.mapIdx_cons]
          rfl

/-- What a creation whose statements all succeed has written. -/
theorem createStatements_ok {input : WorkOrderInput}
    (h : runAll Faults.never 0 db (createStatements c now ids input) = .ok db') :
    db.workOrders.insert? (orderRow now (ids 0) input) = some db'.workOrders ∧
      db'.woOperations.rows =
        db.woOperations.rows ++ operationRows (ids 0) (ids ∘ Nat.succ) input.operations ∧
      db.outbox.insert? (orderEntryRow c now ids input) = some db'.outbox := by
  unfold createStatements at h
  rw [runAll_append, runAll, Faults.send_never] at h
  cases horder : (insertWorkOrder db (orderRow now (ids 0) input)).mapError mapSqlx with
  | error e =>
      rw [horder] at h
      cases h
  | ok ordered =>
      rw [horder] at h
      dsimp only at h
      obtain ⟨workOrders, hins, -, -, rfl⟩ := insertWorkOrder_ok (mapError_eq_ok.mp horder)
      cases hops : runAll Faults.never 1 { db with workOrders }
          (operationStatements (ids 0) (ids ∘ Nat.succ) input.operations) with
      | error e =>
          rw [hops] at h
          cases h
      | ok operated =>
          rw [hops] at h
          obtain ⟨hframe, hrows⟩ := operationStatements_ok hops
          simp only [runAll, Faults.send_never] at h
          cases henq : enqueue operated (ids (input.operations.length + 1)) "work_order" (ids 0)
              "upsert" (orderPayload c (ids 0) input) none now with
          | error e =>
              rw [henq] at h
              cases h
          | ok final =>
              rw [henq] at h
              cases h
              obtain ⟨outbox, hout, rfl⟩ := enqueue_ok henq
              rw [hframe] at hout ⊢
              exact ⟨hins, hrows, hout⟩

/-- Without faults the statements are the loop of the repository. -/
theorem operationStatements_eq (n : ℕ) (ids : ℕ → String) (woId : String) (db : Database)
    (ops : List WoOperationInput) :
    runAll Faults.never n db (operationStatements woId ids ops) =
      (insertOperations woId ids db ops).mapError mapSqlx := by
  induction ops generalizing n ids db with
  | nil => rfl
  | cons op rest ih =>
      rw [operationStatements_cons, runAll, insertOperations, Faults.send_never]
      cases insertOperation db woId (ids 0) op with
      | error e => rfl
      | ok mid => exact ih (n + 1) (ids ∘ Nat.succ) mid

/-- Without faults a creation is that of the repository. -/
theorem createUnder_never (c : Codec) (db : Database) (now : Int) (ids : ℕ → String)
    (input : WorkOrderInput) :
    createUnder Faults.never c db now ids input =
      match createWorkOrder c db now ids input with
      | .error e => (db, .error e)
      | .ok res => (res.1, .ok ⟨res.2,
          operationRows (ids 0) (ids ∘ Nat.succ) input.operations⟩) := by
  unfold createUnder createWorkOrder createStatements
  simp only [transact_never, runAll_append, runAll, Faults.send_never]
  cases insertWorkOrder db (orderRow now (ids 0) input) with
  | error e => rfl
  | ok ordered =>
      simp only [Except.mapError, operationStatements_eq]
      cases insertOperations (ids 0) (ids ∘ Nat.succ) ordered input.operations with
      | error e => rfl
      | ok operated =>
          dsimp only [Except.mapError]
          cases enqueue operated (ids (input.operations.length + 1)) "work_order" (ids 0) "upsert"
            (orderPayload c (ids 0) input) none now <;> rfl

/-- A row of an operation as its input asks for it, not yet started. -/
structure Pending (woId : String) (op : WoOperationInput) (r : WoOperationRow) : Prop where
  workOrderId : r.workOrderId = woId
  opNo : r.opNo = op.opNo
  routingOpId : r.routingOpId = op.routingOpId
  workCenterId : r.workCenterId = op.workCenterId
  status : r.status = "pending"

/-- What a creation adds: one draft, one pending operation for each of the input, and one
entry bound for the cloud. -/
structure Created (input : WorkOrderInput) (db db' : Database) (detail : WorkOrderDetail)
    (entry : OutboxRow) : Prop where
  order : ∃ now id, detail.workOrder = orderRow now id input
  draft : detail.workOrder.status = "draft"
  orders : db'.workOrders.rows = db.workOrders.rows ++ [detail.workOrder]
  pending : List.Forall₂ (Pending detail.workOrder.id) input.operations detail.operations
  operations : db'.woOperations.rows = db.woOperations.rows ++ detail.operations
  outbox : db'.outbox.rows = db.outbox.rows ++ [entry]
  cloudBound : entry.destination = none ∧ entry.syncedAt = none

theorem operationRows_pending (woId : String) (ids : ℕ → String) (ops : List WoOperationInput) :
    List.Forall₂ (Pending woId) ops (operationRows woId ids ops) := by
  induction ops generalizing ids with
  | nil => exact List.Forall₂.nil
  | cons op rest ih =>
      rw [operationRows, List.mapIdx_cons]
      exact List.Forall₂.cons ⟨rfl, rfl, rfl, rfl, rfl⟩ (ih (ids ∘ Nat.succ))

/-- The part and the routing of the order exist. -/
def Refers (r : WorkOrderRow) (db : Database) : Prop :=
  r.partId ∈ db.parts ∧ ∀ k ∈ r.routingId, k ∈ db.routings

theorem orderRefs_isOk {r : WorkOrderRow} (h : Refers r db) :
    orderRefs db r.partId r.routingId = .ok () := by
  rw [orderRefs, if_neg (not_not.mpr h.1)]
  apply optionalRef_isOk.mpr
  intro k hk
  exact decide_eq_true (h.2 k hk)

theorem entryOrder_orderEntry (c : Codec) (now : Int) (ids : ℕ → String)
    (input : WorkOrderInput) :
    entryOrder c (orderEntryRow c now ids input).entry =
      some (draftOf (orderRow now (ids 0) input)) :=
  woPayloadFromJson_orderPayload c now (ids 0) input

/-- Where the order is new the entry of its creation reproduces the row. -/
theorem agrees_of_applyEntry {input : WorkOrderInput} {target target' : Database} {t : Int}
    {plantId : Option String}
    (hnew : target.workOrders.lookup (ids 0) = none)
    (h : applyEntry c target t (orderEntryRow c now ids input).entry plantId
      = .ok (target', true)) :
    Agrees (orderRow now (ids 0) input) target' := by
  obtain ⟨wo, r, horder, hup, hput⟩ := applyEntry_writes rfl h
  rw [entryOrder_orderEntry, Option.some.injEq] at horder
  subst horder
  rcases hup.kept with ⟨old, hold, hid, -⟩ | ⟨-, hpart, hrouting, -⟩
  · exact absurd hid (Table.lookup_eq_none.mp hnew old hold)
  · refine ⟨r, ?_, hup.id, hup.woNumber, hpart, hrouting, hup.qtyOrdered, hup.priority, hup.status,
      hup.plannedStart, hup.plannedEnd⟩
    rw [hput]
    exact Table.mem_put_self _ r

theorem applyEntry_of_new {input : WorkOrderInput} {target : Database} (t : Int)
    (plantId : Option String) (hrefs : Refers (orderRow now (ids 0) input) target)
    (hclaim : (orderEntryRow c now ids input).id ∉ target.appliedEntries)
    (hfree : numberTaken target.workOrders input.woNumber (ids 0) = false) :
    ∃ target', applyEntry c target t (orderEntryRow c now ids input).entry plantId
      = .ok (target', true) := by
  rw [applyEntry_of_notMem hclaim, entryWrite_of_order (entryOrder_orderEntry c now ids input)]
  have hok : (upsertRow target t (draftOf (orderRow now (ids 0) input)) plantId).isOk = true := by
    rw [upsertRow_isOk]
    have hrefs' := orderRefs_isOk hrefs
    simp_all [draftOf, orderRow, Except.isOk, Except.toBool]
  cases hup : upsertRow target t (draftOf (orderRow now (ids 0) input)) plantId with
  | error e =>
      rw [hup] at hok
      cases hok
  | ok r => exact ⟨_, rfl⟩

/-- Whichever statements fail, a creation that is refused leaves everything as it was, and
one that succeeds adds the order, its operations and an entry. A database with the part and
the routing but without the order takes the entry unless it knows it or the number is
another order's, and then has the row on every synced column. -/
theorem createUnder_all_or_nothing (faults : Faults RepoError) (c : Codec) (db : Database)
    (now : Int) (ids : ℕ → String) (input : WorkOrderInput) :
    (∃ e, createUnder faults c db now ids input = (db, .error e)) ∨
      ∃ db' detail entry, createUnder faults c db now ids input = (db', .ok detail) ∧
        Created input db db' detail entry ∧
        ∀ target t plantId, Refers detail.workOrder target →
          target.workOrders.lookup detail.workOrder.id = none →
          (∀ target', applyEntry c target t entry.entry plantId = .ok (target', true) →
            Agrees detail.workOrder target') ∧
          (entry.id ∉ target.appliedEntries →
            numberTaken target.workOrders detail.workOrder.woNumber detail.workOrder.id = false →
            ∃ target', applyEntry c target t entry.entry plantId = .ok (target', true)) := by
  unfold createUnder
  rcases transact_cases faults db (createStatements c now ids input) with
    ⟨e, he⟩ | ⟨db', hrun, hcommit⟩
  · exact Or.inl ⟨e, by rw [he]; rfl⟩
  · right
    obtain ⟨horder, hops, hout⟩ := createStatements_ok hrun
    refine ⟨db', _, orderEntryRow c now ids input, by rw [hcommit]; rfl, ?_, ?_⟩
    · constructor
      · exact ⟨now, ids 0, rfl⟩
      · rfl
      · exact Table.rows_insert? horder
      · exact operationRows_pending (ids 0) (ids ∘ Nat.succ) input.operations
      · exact hops
      · exact Table.rows_insert? hout
      · exact ⟨rfl, rfl⟩
    · intro target t plantId hrefs hnew
      refine ⟨?_, ?_⟩
      · intro target' happ
        exact agrees_of_applyEntry hnew happ
      · exact applyEntry_of_new t plantId hrefs

end Create

end ElectronixMes.Sync
