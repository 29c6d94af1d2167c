import ElectronixMes.Db.Schema
import Mathlib.Data.List.Sort

/-!
# The change feed and the idempotent apply

Both ends of the sync protocol: the outbox and its readers, the apply of an
entry under its claim in the ledger, and the remote work-order commands of the
cloud. A transaction returns the next database or the error that rolled it
back; `applyBatch` is not one transaction, so it returns a database next to its
result.

## Implementation notes

`now` is the timestamp of a transaction. A batch draws one for each entry.
Generated ids are arguments. `ORDER BY created_at` is a stable sort: entries of
one instant keep their insertion order.
-/

namespace ElectronixMes.Db

open Relational Serde

/-- An entry as it travels between edge and cloud. -/
structure SyncEntry where
  id : String
  aggregate : String
  entityId : String
  op : String
  payload : Json

section Outbox

/-- Append an outbox entry within the transaction of the write it describes. -/
def enqueue (db : Database) (id aggregate entityId op : String) (payload : Json)
    (destination : Option String) (now : Int) : Except RepoError Database :=
  match db.outbox.insert? ⟨id, aggregate, entityId, op, payload, destination, now, none⟩ with
  | none => .error (mapSqlx (.uniqueViolation "outbox_pkey"))
  | some outbox => .ok { db with outbox }

def OutboxRow.entry (r : OutboxRow) : SyncEntry :=
  ⟨r.id, r.aggregate, r.entityId, r.op, r.payload⟩

/-- `ORDER BY created_at LIMIT limit`; the server refuses a negative limit. -/
def oldestFirst (rows : List OutboxRow) (limit : Int) : Except RepoError (List SyncEntry) :=
  if limit < 0 then .error (mapSqlx (.other "LIMIT must not be negative"))
  else
    .ok (((rows.insertionSort fun a b => a.createdAt ≤ b.createdAt).take limit.toNat).map
      OutboxRow.entry)

/-- A batch of un-synced, cloud-bound entries, oldest first. -/
def fetchToCloud (db : Database) (limit : Int) : Except RepoError (List SyncEntry) :=
  oldestFirst (db.outbox.rows.filter fun r => r.destination.isNone && r.syncedAt.isNone) limit

/-- The pending commands of a plant. -/
def pendingFor (db : Database) (plantId : String) : List OutboxRow :=
  db.outbox.rows.filter fun r => decide (r.destination = some plantId) && r.syncedAt.isNone

/-- Pull pending command entries destined for a plant, oldest first. -/
def pullForPlant (db : Database) (plantId : String) (limit : Int) :
    Except RepoError (List SyncEntry) :=
  oldestFirst (pendingFor db plantId) limit

/-- Stamp a row that the ids name. -/
def stamp (ids : List String) (now : Int) (r : OutboxRow) : OutboxRow :=
  if r.id ∈ ids then { r with syncedAt := some now } else r

@[simp] theorem stamp_id (ids : List String) (now : Int) (r : OutboxRow) :
    (stamp ids now r).id = r.id := by
  unfold stamp
  split <;> rfl

/-- Mark outbox entries as synced, with the number of rows affected. -/
def markSynced (db : Database) (ids : List String) (now : Int) : Database × ℕ :=
  if ids = [] then (db, 0)
  else
    ({ db with outbox := db.outbox.modify (stamp ids now) (stamp_id ids now) },
      db.outbox.rows.countP fun r => r.id ∈ ids)

end Outbox

section Payload

structure WoPayload where
  id : String
  woNumber : String
  partId : String
  routingId : Option String
  qtyOrdered : Decimal
  priority : Int32
  status : String
  plannedStart : Option Int
  plannedEnd : Option Int

def defaultPriority : Int32 := 100

def draft : String := "draft"

/-- The derived deserialiser: an object by its field names, or an array of
exactly the nine fields in their order. -/
def woPayloadFromJson (c : Codec) : Json → Option WoPayload
  | .obj fields => do
      let id ← required fields "id" Json.asString
      let woNumber ← required fields "wo_number" Json.asString
      let partId ← required fields "part_id" Json.asString
      let routingId ← optional fields "routing_id" Json.asString
      let qtyOrdered ← required fields "qty_ordered" c.decimalFromJson
      let priority ← defaulted fields "priority" Json.asInt32 defaultPriority
      let status ← defaulted fields "status" Json.asString draft
      let plannedStart ← optional fields "planned_start" c.dateTimeFromJson
      let plannedEnd ← optional fields "planned_end" c.dateTimeFromJson
      return ⟨id, woNumber, partId, routingId, qtyOrdered, priority, status, plannedStart,
        plannedEnd⟩
  | .arr [id, woNumber, partId, routingId, qtyOrdered, priority, status, plannedStart,
      plannedEnd] => do
      let id ← Json.asString id
      let woNumber ← Json.asString woNumber
      let partId ← Json.asString partId
      let routingId ← Json.asOption Json.asString routingId
      let qtyOrdered ← c.decimalFromJson qtyOrdered
      let priority ← Json.asInt32 priority
      let status ← Json.asString status
      let plannedStart ← Json.asOption c.dateTimeFromJson plannedStart
      let plannedEnd ← Json.asOption c.dateTimeFromJson plannedEnd
      return ⟨id, woNumber, partId, routingId, qtyOrdered, priority, status, plannedStart,
        plannedEnd⟩
  | _ => none

end Payload

section WorkOrders

/-- Another row than `id`'s holds the number. -/
def numberTaken (t : Table WorkOrderRow) (number id : String) : Bool :=
  t.rows.any fun r => r.woNumber = number ∧ r.id ≠ id

/-- The foreign keys of a new order, checked in the order they were declared. -/
def orderRefs (db : Database) (partId : String) (routingId : Option String) :
    Except SqlError Unit :=
  if partId ∉ db.parts then
    .error (.foreignKeyViolation "work_orders" "work_orders_part_id_fkey")
  else optionalRef (· ∈ db.routings) "work_orders" "work_orders_routing_id_fkey" routingId

/-- A plain insert of an order. -/
def insertWorkOrder (db : Database) (r : WorkOrderRow) : Except SqlError Database :=
  match db.workOrders.insert? r with
  | none => .error (.uniqueViolation "work_orders_pkey")
  | some workOrders =>
      if numberTaken db.workOrders r.woNumber r.id then
        .error (.uniqueViolation "work_orders_wo_number_key")
      else
        match orderRefs db r.partId r.routingId with
        | .error e => .error e
        | .ok () => .ok { db with workOrders }

/-- The row `INSERT ... ON CONFLICT (id) DO UPDATE` writes. The update keeps the
part and the routing, so it checks no foreign key. -/
def upsertRow (db : Database) (now : Int) (wo : WoPayload) (plantId : Option String) :
    Except SqlError WorkOrderRow :=
  if numberTaken db.workOrders wo.woNumber wo.id then
    .error (.uniqueViolation "work_orders_wo_number_key")
  else
    match db.workOrders.lookup wo.id with
    | some old =>
        .ok { old with
          woNumber := wo.woNumber
          qtyOrdered := wo.qtyOrdered
          priority := wo.priority
          status := wo.status
          plannedStart := wo.plannedStart
          plannedEnd := wo.plannedEnd
          plantId := plantId <|> old.plantId
          updatedAt := now }
    | none =>
        match orderRefs db wo.partId wo.routingId with
        | .error e => .error e
        | .ok () =>
            .ok
              { id := wo.id
                woNumber := wo.woNumber
                partId := wo.partId
                routingId := wo.routingId
                qtyOrdered := wo.qtyOrdered
                priority := wo.priority
                status := wo.status
                plannedStart := wo.plannedStart
                plannedEnd := wo.plannedEnd
                plantId
                createdAt := now
                updatedAt := now }

end WorkOrders

section Apply

variable (c : Codec)

def applyWorkOrder (db : Database) (now : Int) (payload : Json) (plantId : Option String) :
    Except RepoError Database :=
  match woPayloadFromJson c payload with
  | none => .error (.invalidReference ("bad work_order payload: " ++ c.errorText payload))
  | some wo =>
      match upsertRow db now wo plantId with
      | .error e => .error (mapSqlx e)
      | .ok r => .ok { db with workOrders := db.workOrders.put r }

/-- Apply one entry: claim its id, then write. `false` is a replay. -/
def applyEntry (db : Database) (now : Int) (entry : SyncEntry) (plantId : Option String) :
    Except RepoError (Database × Bool) :=
  if entry.id ∈ db.appliedEntries then .ok (db, false)
  else
    let claimed := { db with appliedEntries := insert entry.id db.appliedEntries }
    if entry.aggregate = "work_order" then
      (applyWorkOrder c claimed now entry.payload plantId).map fun db => (db, true)
    else .ok (claimed, true)

def applyBatchLoop (plantId : Option String) :
    (ℕ → Int) → Database → List SyncEntry → ℕ → ℕ → Database × Except RepoError (ℕ × ℕ)
  | _, db, [], applied, skipped => (db, .ok (applied, skipped))
  | now, db, e :: rest, applied, skipped =>
      match applyEntry c db (now 0) e plantId with
      | .error err => (db, .error err)
      | .ok (db, true) => applyBatchLoop plantId (now ∘ Nat.succ) db rest (applied + 1) skipped
      | .ok (db, false) => applyBatchLoop plantId (now ∘ Nat.succ) db rest applied (skipped + 1)

/-- Apply a whole batch, returning (applied, skipped). What was applied before a
failing entry stays. -/
def applyBatch (db : Database) (now : ℕ → Int) (entries : List SyncEntry)
    (plantId : Option String) : Database × Except RepoError (ℕ × ℕ) :=
  applyBatchLoop c plantId now db entries 0 0

end Apply

section ApplySpec

variable {c : Codec} {db db' : Database} {now : Int} {plantId : Option String}

theorem numberTaken_eq_false {t : Table WorkOrderRow} {number id : String} :
    numberTaken t number id = false ↔ ∀ r ∈ t, r.woNumber = number → r.id = id := by
  simp [numberTaken]

theorem orderRefs_error {partId : String} {routingId : Option String} {e : SqlError}
    (h : orderRefs db partId routingId = .error e) :
    ∃ table key, e = .foreignKeyViolation table key := by
  unfold orderRefs at h
  split at h
  · cases h
    exact ⟨_, _, rfl⟩
  · unfold optionalRef at h
    split at h
    · cases h
    · split at h
      · cases h
      · cases h
        exact ⟨_, _, rfl⟩

/-- What an upsert that succeeds has checked and writes. An update keeps the
part, the routing and the time of creation, and the plant if none is given. -/
structure Upserted (db : Database) (now : Int) (wo : WoPayload) (plantId : Option String)
    (r : WorkOrderRow) : Prop where
  free : numberTaken db.workOrders wo.woNumber wo.id = false
  id : r.id = wo.id
  woNumber : r.woNumber = wo.woNumber
  qtyOrdered : r.qtyOrdered = wo.qtyOrdered
  priority : r.priority = wo.priority
  status : r.status = wo.status
  plannedStart : r.plannedStart = wo.plannedStart
  plannedEnd : r.plannedEnd = wo.plannedEnd
  updatedAt : r.updatedAt = now
  kept : (∃ old ∈ db.workOrders, old.id = wo.id ∧ r.partId = old.partId ∧
      r.routingId = old.routingId ∧ r.createdAt = old.createdAt ∧
      r.plantId = (plantId <|> old.plantId)) ∨
    (∀ old ∈ db.workOrders, old.id ≠ wo.id) ∧ r.partId = wo.partId ∧
      r.routingId = wo.routingId ∧ r.createdAt = now ∧ r.plantId = plantId

theorem upsertRow_ok {wo : WoPayload} {r : WorkOrderRow}
    (h : upsertRow db now wo plantId = .ok r) : Upserted db now wo plantId r := by
  unfold upsertRow at h
  split at h
  · cases h
  · rename_i hfree
    rw [Bool.not_eq_true] at hfree
    split at h
    · rename_i old hold
      obtain ⟨hmem, hid⟩ := Table.lookup_eq_some.mp hold
      cases h
      exact ⟨hfree, hid, rfl, rfl, rfl, rfl, rfl, rfl, rfl,
        Or.inl ⟨old, hmem, hid, rfl, rfl, rfl, rfl⟩⟩
    · rename_i hnone
      split at h
      · cases h
      · cases h
        exact ⟨hfree, rfl, rfl, rfl, rfl, rfl, rfl, rfl, rfl,
          Or.inr ⟨Table.lookup_eq_none.mp hnone, rfl, rfl, rfl, rfl⟩⟩

/-- The order an entry carries, if its aggregate is known and its payload is one. -/
def entryOrder (c : Codec) (entry : SyncEntry) : Option WoPayload :=
  if entry.aggregate = "work_order" then woPayloadFromJson c entry.payload else none

/-- The order row an unclaimed entry writes, if its aggregate is known. -/
def entryWrite (c : Codec) (db : Database) (now : Int) (entry : SyncEntry)
    (plantId : Option String) : Except RepoError (Option WorkOrderRow) :=
  if entry.aggregate = "work_order" then
    match woPayloadFromJson c entry.payload with
    | none => .error (.invalidReference ("bad work_order payload: " ++ c.errorText entry.payload))
    | some wo =>
        match upsertRow db now wo plantId with
        | .error e => .error (mapSqlx e)
        | .ok r => .ok (some r)
  else .ok none

/-- The claim and the write of an entry, committed together. -/
def commitEntry (db : Database) (id : String) (row : Option WorkOrderRow) : Database :=
  { db with
    appliedEntries := insert id db.appliedEntries
    workOrders := match row with
      | none => db.workOrders
      | some r => db.workOrders.put r }

@[simp] theorem commitEntry_some_workOrders (db : Database) (id : String) (r : WorkOrderRow) :
    (commitEntry db id (some r)).workOrders = db.workOrders.put r := rfl

@[simp] theorem commitEntry_appliedEntries (db : Database) (id : String)
    (row : Option WorkOrderRow) :
    (commitEntry db id row).appliedEntries = insert id db.appliedEntries := rfl

/-- An entry is a replay, fails, or commits its claim together with its write. -/
theorem applyEntry_eq (c : Codec) (db : Database) (now : Int) (entry : SyncEntry)
    (plantId : Option String) :
    applyEntry c db now entry plantId =
      if entry.id ∈ db.appliedEntries then .ok (db, false)
      else
        match entryWrite c db now entry plantId with
        | .error e => .error e
        | .ok row => .ok (commitEntry db entry.id row, true) := by
  unfold applyEntry entryWrite applyWorkOrder
  split
  · rfl
  · dsimp only
    split
    · cases woPayloadFromJson c entry.payload with
      | none => rfl
      | some wo =>
          dsimp only
          -- the upsert does not read the ledger, so the claim changes nothing for it
          change Except.map _ (match upsertRow db now wo plantId with
            | .error e => _
            | .ok r => _) = _
          cases upsertRow db now wo plantId <;> rfl
    · rfl

theorem applyEntry_of_mem {entry : SyncEntry} (h : entry.id ∈ db.appliedEntries) :
    applyEntry c db now entry plantId = .ok (db, false) := by
  rw [applyEntry_eq, if_pos h]

theorem applyEntry_of_notMem {entry : SyncEntry} (h : entry.id ∉ db.appliedEntries) :
    applyEntry c db now entry plantId =
      match entryWrite c db now entry plantId with
      | .error e => .error e
      | .ok row => .ok (commitEntry db entry.id row, true) := by
  rw [applyEntry_eq, if_neg h]

/-- A write that succeeds comes from a payload and its upsert. -/
theorem entryWrite_ok_some {entry : SyncEntry} {r : WorkOrderRow}
    (h : entryWrite c db now entry plantId = .ok (some r)) :
    ∃ wo, entryOrder c entry = some wo ∧ upsertRow db now wo plantId = .ok r := by
  unfold entryWrite at h
  split at h
  · rename_i hagg
    rw [entryOrder, if_pos hagg]
    cases hp : woPayloadFromJson c entry.payload with
    | none =>
        rw [hp] at h
        cases h
    | some wo =>
        rw [hp] at h
        dsimp only at h
        cases hu : upsertRow db now wo plantId with
        | error e =>
            rw [hu] at h
            cases h
        | ok r' =>
            rw [hu] at h
            cases h
            exact ⟨wo, rfl, hu⟩
  · cases h

theorem updatedAt_of_entryWrite {entry : SyncEntry} {r : WorkOrderRow}
    (h : entryWrite c db now entry plantId = .ok (some r)) : r.updatedAt = now := by
  obtain ⟨wo, -, hup⟩ := entryWrite_ok_some h
  exact (upsertRow_ok hup).updatedAt

/-- What an entry newly applied does to the orders and the ledger. -/
theorem applyEntry_true {entry : SyncEntry}
    (h : applyEntry c db now entry plantId = .ok (db', true)) :
    entry.id ∉ db.appliedEntries ∧ ∃ row,
      entryWrite c db now entry plantId = .ok row ∧ db' = commitEntry db entry.id row := by
  rw [applyEntry_eq] at h
  split at h
  · cases h
  · rename_i hnot
    cases hw : entryWrite c db now entry plantId with
    | error err =>
        rw [hw] at h
        cases h
    | ok row =>
        rw [hw] at h
        cases h
        exact ⟨hnot, row, rfl, rfl⟩

theorem applyEntry_false {entry : SyncEntry}
    (h : applyEntry c db now entry plantId = .ok (db', false)) :
    db' = db := by
  rw [applyEntry_eq] at h
  split at h
  · cases h
    rfl
  · split at h <;> cases h

/-- An entry that carries an order writes what the order's upsert writes. -/
theorem entryWrite_of_order {entry : SyncEntry} {wo : WoPayload}
    (h : entryOrder c entry = some wo) :
    entryWrite c db now entry plantId =
      match upsertRow db now wo plantId with
      | .error e => .error (mapSqlx e)
      | .ok r => .ok (some r) := by
  unfold entryOrder at h
  split at h
  · rename_i hagg
    rw [entryWrite, if_pos hagg, h]
  · cases h

/-- What an entry without an order does depends on no state. -/
theorem entryWrite_of_no_order {entry : SyncEntry} (h : entryOrder c entry = none)
    (db₁ db₂ : Database) (now : Int) (plantId : Option String) :
    entryWrite c db₁ now entry plantId = entryWrite c db₂ now entry plantId := by
  unfold entryOrder at h
  unfold entryWrite
  split at h
  · rename_i hagg
    rw [if_pos hagg, if_pos hagg, h]
  · rename_i hagg
    rw [if_neg hagg, if_neg hagg]

theorem upsertRow_congr {db₁ db₂ : Database} {wo : WoPayload}
    (hparts : db₂.parts = db₁.parts) (hroutings : db₂.routings = db₁.routings)
    (hlookup : db₂.workOrders.lookup wo.id = db₁.workOrders.lookup wo.id)
    (htaken : numberTaken db₂.workOrders wo.woNumber wo.id =
      numberTaken db₁.workOrders wo.woNumber wo.id) :
    upsertRow db₂ now wo plantId = upsertRow db₁ now wo plantId := by
  unfold upsertRow orderRefs
  rw [hparts, hroutings, hlookup, htaken]

/-- The checks that an unclaimed entry has to pass. -/
def accepts (c : Codec) (db : Database) (entry : SyncEntry) : Bool :=
  if entry.aggregate = "work_order" then
    match woPayloadFromJson c entry.payload with
    | none => false
    | some wo =>
        !numberTaken db.workOrders wo.woNumber wo.id &&
          ((db.workOrders.lookup wo.id).isSome || (orderRefs db wo.partId wo.routingId).isOk)
  else true

theorem upsertRow_isOk (db : Database) (now : Int) (wo : WoPayload) (plantId : Option String) :
    (upsertRow db now wo plantId).isOk =
      (!numberTaken db.workOrders wo.woNumber wo.id &&
        ((db.workOrders.lookup wo.id).isSome || (orderRefs db wo.partId wo.routingId).isOk)) := by
  unfold upsertRow
  cases numberTaken db.workOrders wo.woNumber wo.id with
  | true => rfl
  | false =>
      cases db.workOrders.lookup wo.id with
      | some old => rfl
      | none => cases orderRefs db wo.partId wo.routingId <;> rfl

theorem entryWrite_isOk (c : Codec) (db : Database) (now : Int) (entry : SyncEntry)
    (plantId : Option String) :
    (entryWrite c db now entry plantId).isOk = accepts c db entry := by
  unfold entryWrite accepts
  split
  · cases woPayloadFromJson c entry.payload with
    | none => rfl
    | some wo =>
        dsimp only
        rw [← upsertRow_isOk db now wo plantId]
        cases upsertRow db now wo plantId <;> rfl
  · rfl

/-- The database after the transaction of an entry, which a failure rolls back. -/
def afterApply (c : Codec) (db : Database) (now : Int) (entry : SyncEntry)
    (plantId : Option String) : Database :=
  match applyEntry c db now entry plantId with
  | .ok res => res.1
  | .error _ => db

/-- The state is kept, or an entry that was not claimed before is committed. -/
theorem afterApply_cases (c : Codec) (db : Database) (now : Int) (entry : SyncEntry)
    (plantId : Option String) :
    afterApply c db now entry plantId = db ∨
      entry.id ∉ db.appliedEntries ∧ ∃ row, entryWrite c db now entry plantId = .ok row ∧
        afterApply c db now entry plantId = commitEntry db entry.id row := by
  unfold afterApply
  by_cases hmem : entry.id ∈ db.appliedEntries
  · rw [applyEntry_of_mem hmem]
    exact Or.inl rfl
  · rw [applyEntry_of_notMem hmem]
    cases entryWrite c db now entry plantId with
    | error e => exact Or.inl rfl
    | ok row => exact Or.inr ⟨hmem, row, rfl, rfl⟩

/-- What every applied entry of a batch keeps, the batch keeps. -/
theorem applyBatchLoop_induction {P : Database → Prop} {entries : List SyncEntry}
    {clock : ℕ → Int}
    (hstep : ∀ db db' i e b, e ∈ entries → P db →
      applyEntry c db (clock i) e plantId = .ok (db', b) → P db')
    (applied skipped : ℕ) (hinit : P db) :
    P (applyBatchLoop c plantId clock db entries applied skipped).1 := by
  induction entries generalizing db clock applied skipped with
  | nil => exact hinit
  | cons e rest ih =>
      have hrest : ∀ db db' i e b, e ∈ rest → P db →
          applyEntry c db ((clock ∘ Nat.succ) i) e plantId = .ok (db', b) → P db' :=
        fun db db' i e b he => hstep db db' (i + 1) e b (List.mem_cons_of_mem _ he)
      unfold applyBatchLoop
      split
      · exact hinit
      · rename_i db' happ
        exact ih hrest _ _ (hstep _ _ _ e _ List.mem_cons_self hinit happ)
      · rename_i db' happ
        exact ih hrest _ _ (hstep _ _ _ e _ List.mem_cons_self hinit happ)

/-- Applying an entry touches the ledger and the orders only. -/
theorem applyEntry_frame {entry : SyncEntry} {b : Bool}
    (h : applyEntry c db now entry plantId = .ok (db', b)) :
    db' = { db with appliedEntries := db'.appliedEntries, workOrders := db'.workOrders } := by
  rw [applyEntry_eq] at h
  split at h
  · cases h
    rfl
  · split at h
    · cases h
    · cases h
      rfl

theorem applyBatch_outbox (c : Codec) (db : Database) (clock : ℕ → Int)
    (entries : List SyncEntry) (plantId : Option String) :
    (applyBatch c db clock entries plantId).1.outbox = db.outbox := by
  apply applyBatchLoop_induction (P := fun d => d.outbox = db.outbox)
  · intro d d' i e b _ hd happ
    rw [applyEntry_frame happ]
    exact hd
  · rfl

end ApplySpec

section Plants

/-- Verify a plant's bearer token against the stored hash. -/
def verifyPlantToken (hashToken : String → String) (db : Database) (plantId token : String) :
    Bool :=
  match db.plants.lookup plantId with
  | some p =>
      match p.enrollmentTokenHash with
      | some hash => hash = hashToken token
      | none => false
  | none => false

def touchPlantSync (db : Database) (plantId : String) (now : Int) : Database :=
  { db with
    plants := db.plants.modify
      (fun p => if p.id = plantId then { p with lastSyncAt := some now } else p)
      (by intro p; by_cases h : p.id = plantId <;> simp [h]) }

/-- Create a work order on the cloud and enqueue it as a command for a plant. -/
def createRemoteWorkOrder (c : Codec) (db : Database) (now : Int) (woId entryId : String)
    (plantId woNumber partId : String) (qtyOrdered : Decimal) (priority : Option Int32) :
    Except RepoError (Database × String) :=
  let payload : Json := .obj
    [("id", .str woId),
      ("wo_number", .str woNumber),
      ("part_id", .str partId),
      ("qty_ordered", c.decimalToJson qtyOrdered),
      ("priority", .int (priority.getD 100).toInt),
      ("status", .str "draft")]
  match insertWorkOrder db
      { id := woId
        woNumber
        partId
        routingId := none
        qtyOrdered
        priority := priority.getD 100
        status := "draft"
        plannedStart := none
        plannedEnd := none
        plantId := some plantId
        createdAt := now
        updatedAt := now } with
  | .error e => .error (mapSqlx e)
  | .ok db => (enqueue db entryId "work_order" woId "upsert" payload (some plantId) now).map
      fun db => (db, woId)

variable {c : Codec} {db db' : Database} {now : Int}

theorem enqueue_ok {id aggregate entityId op : String} {payload : Json}
    {destination : Option String}
    (h : enqueue db id aggregate entityId op payload destination now = .ok db') :
    ∃ outbox, db.outbox.insert?
        ⟨id, aggregate, entityId, op, payload, destination, now, none⟩ = some outbox ∧
      db' = { db with outbox } := by
  unfold enqueue at h
  split at h
  · cases h
  · rename_i outbox hins
    cases h
    exact ⟨outbox, hins, rfl⟩

theorem insertWorkOrder_ok {r : WorkOrderRow} (h : insertWorkOrder db r = .ok db') :
    ∃ workOrders, db.workOrders.insert? r = some workOrders ∧
      numberTaken db.workOrders r.woNumber r.id = false ∧
      orderRefs db r.partId r.routingId = .ok () ∧ db' = { db with workOrders } := by
  unfold insertWorkOrder at h
  split at h
  · cases h
  · rename_i workOrders hins
    split at h
    · cases h
    · rename_i hfree
      rw [Bool.not_eq_true] at hfree
      split at h
      · cases h
      · rename_i hrefs
        cases h
        exact ⟨workOrders, hins, hfree, hrefs, rfl⟩

/-- A successful creation appends one command for the plant, not yet synced. -/
theorem createRemoteWorkOrder_outbox {woId entryId plantId woNumber partId : String}
    {qtyOrdered : Decimal} {priority : Option Int32} {res : Database × String}
    (h : createRemoteWorkOrder c db now woId entryId plantId woNumber partId qtyOrdered
      priority = .ok res) :
    ∃ row : OutboxRow, row.id = entryId ∧ row.destination = some plantId ∧
      row.syncedAt = none ∧ ∀ r, r ∈ res.1.outbox ↔ r ∈ db.outbox ∨ r = row := by
  unfold createRemoteWorkOrder at h
  dsimp only at h
  split at h
  · cases h
  · rename_i mid hins
    obtain ⟨workOrders, -, -, -, rfl⟩ := insertWorkOrder_ok hins
    cases henq : enqueue { db with workOrders } entryId "work_order" woId "upsert" _
        (some plantId) now with
    | error e =>
        rw [henq] at h
        cases h
    | ok final =>
        rw [henq] at h
        cases h
        obtain ⟨outbox, hout, rfl⟩ := enqueue_ok henq
        exact ⟨_, rfl, rfl, rfl, fun r => Table.mem_insert? hout⟩

/-- A limit that reaches every pending command returns every one. -/
theorem mem_pullForPlant {plantId : String} {limit : Int} {r : OutboxRow}
    (hr : r ∈ pendingFor db plantId) (hlimit : ((pendingFor db plantId).length : Int) ≤ limit) :
    ∃ entries, pullForPlant db plantId limit = .ok entries ∧ r.entry ∈ entries := by
  have hnonneg : ¬ limit < 0 := by omega
  refine ⟨_, by rw [pullForPlant, oldestFirst, if_neg hnonneg], ?_⟩
  rw [List.take_of_length_le]
  · exact List.mem_map_of_mem (List.mem_insertionSort _ |>.mpr hr)
  · rw [List.length_insertionSort]
    omega

end Plants

end ElectronixMes.Db
