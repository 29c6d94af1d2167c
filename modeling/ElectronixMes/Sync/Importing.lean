import ElectronixMes.Edge.ErpImport
import ElectronixMes.Sync.Creation

/-!
# Imports as a whole

An import creates its orders one transaction after the other. With new ids a
creation succeeds exactly when the order's number is free, what the order refers
to exists and no operation number occurs twice. So an import is all or nothing
and logged truthfully exactly when all its records can be created or the first
one cannot.
-/

namespace ElectronixMes.Sync

open Db Relational Serde Edge

section Create

variable {c : Codec} {db db' : Database} {now : Int} {ids : ℕ → String} {woId id : String}
  {input : WorkOrderInput}

/-- What an operation refers to exists. -/
structure OperationRefers (db : Database) (op : WoOperationInput) : Prop where
  routingOp : ∀ k ∈ op.routingOpId, k ∈ db.routingOps
  workCenter : ∀ k ∈ op.workCenterId, (db.workCenters.lookup k).isSome = true

theorem operationRefers_congr (hroutingOps : db'.routingOps = db.routingOps)
    (hcenters : db'.workCenters = db.workCenters) (op : WoOperationInput) :
    OperationRefers db' op ↔ OperationRefers db op := by
  constructor
  · rintro ⟨hrouting, hcenter⟩
    exact ⟨hroutingOps ▸ hrouting, hcenters ▸ hcenter⟩
  · rintro ⟨hrouting, hcenter⟩
    exact ⟨hroutingOps ▸ hrouting, hcenters ▸ hcenter⟩

/-- The number of the order is free, no number of its operations occurs twice, and all that it
refers to exists. -/
structure Creatable (db : Database) (input : WorkOrderInput) : Prop where
  free : ∀ r ∈ db.workOrders, r.woNumber ≠ input.woNumber
  part : input.partId ∈ db.parts
  routing : ∀ k ∈ input.routingId, k ∈ db.routings
  opNos : (input.operations.map WoOperationInput.opNo).Nodup
  operations : ∀ op ∈ input.operations, OperationRefers db op

theorem insertOperation_isOk (woId : String) (op : WoOperationInput)
    (hid : ∀ r ∈ db.woOperations, r.id ≠ id) :
    (∃ db', insertOperation db woId id op = .ok db') ↔
      (∀ r ∈ db.woOperations, r.workOrderId = woId → r.opNo ≠ op.opNo) ∧
        OperationRefers db op := by
  obtain ⟨woOperations, hins⟩ : ∃ t, db.woOperations.insert? (operationRow woId id op) = some t :=
    Table.exists_insert? hid
  have htaken : (db.woOperations.rows.any fun r => r.workOrderId = woId ∧ r.opNo = op.opNo) = true ↔
      ¬ ∀ r ∈ db.woOperations, r.workOrderId = woId → r.opNo ≠ op.opNo := by
    simp [List.any_eq_true, Table.mem_rows]
  unfold insertOperation
  simp only [show db.woOperations.insert? ⟨id, woId, op.routingOpId, op.opNo, op.workCenterId,
    "pending", 0, 0, none, none⟩ = some woOperations from hins]
  by_cases hfree : ∀ r ∈ db.woOperations, r.workOrderId = woId → r.opNo ≠ op.opNo
  · rw [if_neg (fun h => htaken.mp h hfree)]
    constructor
    · rintro ⟨db', h⟩
      obtain ⟨_, h₁, h⟩ := bind_eq_ok.mp h
      obtain ⟨_, h₂, h⟩ := bind_eq_ok.mp h
      refine ⟨hfree, ?_, optionalRef_isOk.mp h₂⟩
      intro k hk
      exact of_decide_eq_true (optionalRef_isOk.mp h₁ k hk)
    · rintro ⟨-, hrefs⟩
      refine ⟨{ db with woOperations }, ?_⟩
      rw [optionalRef_isOk.mpr fun k hk => decide_eq_true (hrefs.routingOp k hk),
        optionalRef_isOk.mpr hrefs.workCenter]
      rfl
  · rw [if_pos (htaken.mpr hfree)]
    constructor
    · rintro ⟨db', h⟩
      cases h
    · rintro ⟨h, -⟩
      exact absurd h hfree

/-- Behind an inserted operation the numbers of the rest are free when those of the whole list
are free before it. -/
theorem opNos_cons {mid : Database} {op : WoOperationInput} {rest : List WoOperationInput}
    (hmem : ∀ r, r ∈ mid.woOperations ↔ r ∈ db.woOperations ∨ r = operationRow woId id op)
    (hfree : ∀ r ∈ db.woOperations, r.workOrderId = woId → r.opNo ≠ op.opNo) :
    ((∀ r ∈ mid.woOperations, r.workOrderId = woId → ∀ op' ∈ rest, r.opNo ≠ op'.opNo) ∧
        (rest.map WoOperationInput.opNo).Nodup) ↔
      (∀ r ∈ db.woOperations, r.workOrderId = woId → ∀ op' ∈ op :: rest, r.opNo ≠ op'.opNo) ∧
        ((op :: rest).map WoOperationInput.opNo).Nodup := by
  simp only [hmem, List.map_cons, List.nodup_cons, List.mem_map, List.forall_mem_cons]
  constructor
  · rintro ⟨hrest, hnodup⟩
    refine ⟨?_, ?_, hnodup⟩
    · intro r hr hwo
      exact ⟨hfree r hr hwo, hrest r (Or.inl hr) hwo⟩
    · rintro ⟨op', hop', heq⟩
      exact hrest _ (Or.inr rfl) rfl op' hop' heq.symm
  · rintro ⟨hrest, hnew, hnodup⟩
    refine ⟨?_, hnodup⟩
    rintro r (hr | rfl) hwo op' hop'
    · exact (hrest r hr hwo).2 op' hop'
    · intro heq
      exact hnew ⟨op', hop', heq.symm⟩

/-- The loop over the operations of an order succeeds when no number is used before or twice. -/
theorem insertOperations_isOk {ops : List WoOperationInput} (hinj : Function.Injective ids)
    (hids : ∀ r ∈ db.woOperations, ∀ j, r.id ≠ ids j) :
    (∃ db', insertOperations woId ids db ops = .ok db') ↔
      (∀ r ∈ db.woOperations, r.workOrderId = woId → ∀ op ∈ ops, r.opNo ≠ op.opNo) ∧
        (ops.map WoOperationInput.opNo).Nodup ∧ ∀ op ∈ ops, OperationRefers db op := by
  induction ops generalizing db ids with
  | nil => simp [insertOperations]
  | cons op rest ih =>
      rw [insertOperations]
      have hfirst := insertOperation_isOk woId op (fun r hr => hids r hr 0)
      cases hins : insertOperation db woId (ids 0) op with
      | error e =>
          rw [hins] at hfirst
          simp only [reduceCtorEq, exists_false, false_iff] at hfirst ⊢
          rintro ⟨hfree, -, hrefs⟩
          refine hfirst ⟨?_, hrefs op List.mem_cons_self⟩
          intro r hr hwo
          exact hfree r hr hwo op List.mem_cons_self
      | ok mid =>
          obtain ⟨hframe, hrows⟩ := insertOperation_rows hins
          rw [hins] at hfirst
          obtain ⟨hfree, hrefs⟩ := hfirst.mp ⟨mid, rfl⟩
          have hmem (r : WoOperationRow) : r ∈ mid.woOperations ↔
              r ∈ db.woOperations ∨ r = operationRow woId (ids 0) op := by
            rw [← Table.mem_rows, hrows, List.mem_append, List.mem_singleton, Table.mem_rows]
          have hrefers (op' : WoOperationInput) :
              OperationRefers mid op' ↔ OperationRefers db op' := by
            apply operationRefers_congr
            · rw [hframe]
            · rw [hframe]
          dsimp only
          rw [ih (hinj.comp Nat.succ_injective)]
          · simp only [hrefers, List.forall_mem_cons (l := rest), ← and_assoc]
            rw [opNos_cons hmem hfree]
            simp [hrefs]
          · intro r hr j
            rcases (hmem r).mp hr with hr | rfl
            · exact hids r hr (j + 1)
            · exact hinj.ne (Nat.succ_ne_zero j).symm

/-- The ids that are drawn for a creation are new. -/
structure NewOrderIds (db : Database) (ids : ℕ → String) : Prop where
  injective : Function.Injective ids
  orders : ∀ r ∈ db.workOrders, ∀ j, r.id ≠ ids j
  operations : ∀ r ∈ db.woOperations, ∀ j, r.id ≠ ids j ∧ r.workOrderId ≠ ids j
  outbox : ∀ r ∈ db.outbox, ∀ j, r.id ≠ ids j

theorem refers_of_orderRefs {r : WorkOrderRow} (h : orderRefs db r.partId r.routingId = .ok ()) :
    Refers r db := by
  unfold orderRefs at h
  split at h
  · cases h
  · rename_i hpart
    refine ⟨not_not.mp hpart, ?_⟩
    intro k hk
    exact of_decide_eq_true (optionalRef_isOk.mp h k hk)

theorem insertWorkOrder_isOk {r : WorkOrderRow} (hid : ∀ s ∈ db.workOrders, s.id ≠ r.id) :
    (∃ db', insertWorkOrder db r = .ok db') ↔
      (∀ s ∈ db.workOrders, s.woNumber ≠ r.woNumber) ∧ Refers r db := by
  obtain ⟨workOrders, hins⟩ : ∃ t, db.workOrders.insert? r = some t := Table.exists_insert? hid
  have htaken : numberTaken db.workOrders r.woNumber r.id = true ↔
      ¬ ∀ s ∈ db.workOrders, s.woNumber ≠ r.woNumber := by
    simp only [numberTaken, List.any_eq_true, decide_eq_true_eq, Table.mem_rows, not_forall,
      not_not, exists_prop]
    constructor
    · rintro ⟨s, hs, hnumber, -⟩
      exact ⟨s, hs, hnumber⟩
    · rintro ⟨s, hs, hnumber⟩
      exact ⟨s, hs, hnumber, hid s hs⟩
  unfold insertWorkOrder
  simp only [hins]
  by_cases hfree : ∀ s ∈ db.workOrders, s.woNumber ≠ r.woNumber
  · rw [if_neg (fun h => htaken.mp h hfree)]
    constructor
    · rintro ⟨db', h⟩
      split at h
      · cases h
      · rename_i hrefs
        exact ⟨hfree, refers_of_orderRefs hrefs⟩
    · rintro ⟨-, hrefs⟩
      rw [orderRefs_isOk hrefs]
      exact ⟨_, rfl⟩
  · rw [if_pos (htaken.mpr hfree)]
    simp [hfree]

/-- With new ids a creation succeeds exactly when the order can be created. -/
theorem createWorkOrder_isOk (hnew : NewOrderIds db ids) :
    (∃ res, createWorkOrder c db now ids input = .ok res) ↔ Creatable db input := by
  have hinsert := @insertWorkOrder_isOk db (orderRow now (ids 0) input)
    (fun r hr => hnew.orders r hr 0)
  unfold createWorkOrder
  dsimp only
  cases hmid : insertWorkOrder db (orderRow now (ids 0) input) with
  | error e =>
      rw [hmid] at hinsert
      simp only [reduceCtorEq, exists_false, false_iff] at hinsert ⊢
      intro h
      exact hinsert ⟨h.free, h.part, h.routing⟩
  | ok mid =>
      rw [hmid] at hinsert
      obtain ⟨hfree, hpart, hrouting⟩ := hinsert.mp ⟨mid, rfl⟩
      obtain ⟨workOrders, -, -, -, rfl⟩ := insertWorkOrder_ok hmid
      have hops := @insertOperations_isOk { db with workOrders } (ids ∘ Nat.succ) (ids 0)
        input.operations (hnew.injective.comp Nat.succ_injective)
        (fun r hr j => (hnew.operations r hr (j + 1)).1)
      dsimp only
      cases hloop : insertOperations (ids 0) (ids ∘ Nat.succ) { db with workOrders }
          input.operations with
      | error e =>
          rw [hloop] at hops
          simp only [reduceCtorEq, exists_false, false_iff] at hops ⊢
          intro h
          refine hops ⟨?_, h.opNos, ?_⟩
          · intro r hr hwo
            exact absurd hwo (hnew.operations r hr 0).2
          · intro op hop
            exact (@operationRefers_congr db { db with workOrders } rfl rfl op).mpr
              (h.operations op hop)
      | ok done =>
          rw [hloop] at hops
          obtain ⟨-, hnodup, hrefs⟩ := hops.mp ⟨done, rfl⟩
          obtain ⟨hframe, -, -⟩ := insertOperations_ok hloop
          have hcreatable : Creatable db input := by
            refine ⟨hfree, hpart, hrouting, hnodup, ?_⟩
            intro op hop
            exact (@operationRefers_congr db { db with workOrders } rfl rfl op).mp (hrefs op hop)
          obtain ⟨outbox, hout⟩ : ∃ t, done.outbox.insert?
              ⟨ids (input.operations.length + 1), "work_order", ids 0, "upsert",
                orderPayload c (ids 0) input, none, now, none⟩ = some t := by
            apply Table.exists_insert?
            intro r hr
            rw [hframe] at hr
            exact hnew.outbox r hr _
          simp only [enqueue, hout, hcreatable, iff_true]
          exact ⟨_, rfl⟩

theorem insertOperations_rows {ops : List WoOperationInput}
    (h : insertOperations woId ids db ops = .ok db') :
    db' = { db with woOperations := db'.woOperations } ∧
      db'.woOperations.rows = db.woOperations.rows ++ operationRows woId ids ops := by
  apply operationStatements_ok (n := 0)
  rw [operationStatements_eq, h]
  rfl

/-- What a creation adds to the tables. -/
structure Adds (c : Codec) (now : Int) (ids : ℕ → String) (input : WorkOrderInput)
    (db db' : Database) : Prop where
  orders : db'.workOrders.rows = db.workOrders.rows ++ [orderRow now (ids 0) input]
  operations : db'.woOperations.rows =
    db.woOperations.rows ++ operationRows (ids 0) (ids ∘ Nat.succ) input.operations
  outbox : db'.outbox.rows = db.outbox.rows ++ [orderEntryRow c now ids input]
  frame : db' = { db with
    workOrders := db'.workOrders
    woOperations := db'.woOperations
    outbox := db'.outbox }

theorem adds_of_createWorkOrder {res : Database × WorkOrderRow}
    (h : createWorkOrder c db now ids input = .ok res) : Adds c now ids input db res.1 := by
  unfold createWorkOrder at h
  dsimp only at h
  cases hmid : insertWorkOrder db (orderRow now (ids 0) input) with
  | error e =>
      rw [hmid] at h
      cases h
  | ok mid =>
      obtain ⟨workOrders, hins, -, -, rfl⟩ := insertWorkOrder_ok hmid
      rw [hmid] at h
      dsimp only at h
      cases hloop : insertOperations (ids 0) (ids ∘ Nat.succ) { db with workOrders }
          input.operations with
      | error e =>
          rw [hloop] at h
          cases h
      | ok done =>
          obtain ⟨hframe, hrows⟩ := insertOperations_rows hloop
          rw [hloop] at h
          dsimp only at h
          cases henq : enqueue done (ids (input.operations.length + 1)) "work_order" (ids 0)
              "upsert" (orderPayload c (ids 0) input) none now with
          | error e =>
              rw [henq] at h
              cases h
          | ok final =>
              obtain ⟨outbox, hout, rfl⟩ := enqueue_ok henq
              rw [henq] at h
              cases h
              rw [hframe] at hout ⊢
              exact ⟨Table.rows_insert? hins, hrows, Table.rows_insert? hout, rfl⟩

theorem Adds.mem_orders {now : Int} (h : Adds c now ids input db db') (r : WorkOrderRow) :
    r ∈ db'.workOrders ↔ r ∈ db.workOrders ∨ r = orderRow now (ids 0) input := by
  rw [← Table.mem_rows, h.orders, List.mem_append, List.mem_singleton, Table.mem_rows]

/-- The next order can be created when it could before and has another number. -/
theorem Adds.creatable_iff (h : Adds c now ids input db db') (next : WorkOrderInput) :
    Creatable db' next ↔ Creatable db next ∧ input.woNumber ≠ next.woNumber := by
  have hmem := h.mem_orders
  have hrefs (op : WoOperationInput) : OperationRefers db' op ↔ OperationRefers db op := by
    apply operationRefers_congr
    · rw [h.frame]
    · rw [h.frame]
  have hparts : db'.parts = db.parts ∧ db'.routings = db.routings := by
    rw [h.frame]
    exact ⟨rfl, rfl⟩
  constructor
  · rintro ⟨hfree, hpart, hrouting, hopNos, hops⟩
    refine ⟨⟨?_, hparts.1 ▸ hpart, hparts.2 ▸ hrouting, hopNos, ?_⟩, ?_⟩
    · intro r hr
      exact hfree r ((hmem r).mpr (Or.inl hr))
    · intro op hop
      exact (hrefs op).mp (hops op hop)
    · exact hfree _ ((hmem _).mpr (Or.inr rfl))
  · rintro ⟨⟨hfree, hpart, hrouting, hopNos, hops⟩, hne⟩
    refine ⟨?_, hparts.1 ▸ hpart, hparts.2 ▸ hrouting, hopNos, ?_⟩
    · intro r hr
      rcases (hmem r).mp hr with hr | rfl
      · exact hfree r hr
      · exact hne
    · intro op hop
      exact (hrefs op).mpr (hops op hop)

/-- Ids that are new and were not drawn for a creation are new after it. -/
theorem Adds.newOrderIds (h : Adds c now ids input db db') {ids' : ℕ → String}
    (hnew : NewOrderIds db ids') (hother : ∀ j j', ids j ≠ ids' j') : NewOrderIds db' ids' := by
  refine ⟨hnew.injective, ?_, ?_, ?_⟩
  · intro r hr j
    rcases (h.mem_orders r).mp hr with hr | rfl
    · exact hnew.orders r hr j
    · exact hother 0 j
  · intro r hr j
    rw [← Table.mem_rows, h.operations, List.mem_append, Table.mem_rows] at hr
    rcases hr with hr | hr
    · exact hnew.operations r hr j
    · obtain ⟨k, hk, rfl⟩ := List.mem_mapIdx.mp hr
      exact ⟨hother (k + 1) j, hother 0 j⟩
  · intro r hr j
    rw [← Table.mem_rows, h.outbox, List.mem_append, List.mem_singleton, Table.mem_rows] at hr
    rcases hr with hr | rfl
    · exact hnew.outbox r hr j
    · exact hother _ j

end Create

section Loop

variable (c : Codec) (debug : RepoError → String) (mapping : FieldMapping)

/-- The order that a record asks for. -/
def inputOf (rec : Json) : Option WorkOrderInput :=
  workOrderInputFromFields c (mapping.toCanonical rec)

/-- The record asks for an order that can be created. -/
def Importable (db : Database) (rec : Json) : Prop :=
  ∃ input, inputOf c mapping rec = some input ∧ Creatable db input

/-- All records ask for orders that can be created, with different numbers. -/
def AllImportable (db : Database) (records : List Json) : Prop :=
  ∃ inputs, records.mapM (inputOf c mapping) = some inputs ∧
    (∀ input ∈ inputs, Creatable db input) ∧ (inputs.map WorkOrderInput.woNumber).Nodup

/-- The ids that are drawn for an import are new. -/
structure NewImportIds (db : Database) (ids : ℕ → ℕ → String) : Prop where
  apart : ∀ i i', i ≠ i' → ∀ j j', ids i j ≠ ids i' j'
  each : ∀ i, NewOrderIds db (ids i)

variable {c debug mapping} {db : Database} {now : ℕ → Int} {ids : ℕ → ℕ → String}
  {records : List Json} {created : List String} {i : ℕ}

/-- The first record can be created, and the others can be next to it. -/
theorem allImportable_cons {rec : Json} {rest : List Json} :
    AllImportable c mapping db (rec :: rest) ↔
      ∃ input, inputOf c mapping rec = some input ∧ Creatable db input ∧
        ∃ inputs, rest.mapM (inputOf c mapping) = some inputs ∧
          (∀ next ∈ inputs, Creatable db next ∧ input.woNumber ≠ next.woNumber) ∧
            (inputs.map WorkOrderInput.woNumber).Nodup := by
  unfold AllImportable
  rw [List.mapM_cons]
  simp only [Option.bind_eq_bind, Option.bind_eq_some_iff, Option.pure_def, Option.some.injEq]
  constructor
  · rintro ⟨_, ⟨input, hinput, inputs, hrest, rfl⟩, hall, hnodup⟩
    rw [List.map_cons, List.nodup_cons] at hnodup
    refine ⟨input, hinput, hall input List.mem_cons_self, inputs, hrest, ?_, hnodup.2⟩
    intro next hnext
    refine ⟨hall next (List.mem_cons_of_mem _ hnext), ?_⟩
    intro heq
    exact hnodup.1 (heq ▸ List.mem_map_of_mem hnext)
  · rintro ⟨input, hinput, hfirst, inputs, hrest, hall, hnodup⟩
    refine ⟨_, ⟨input, hinput, inputs, hrest, rfl⟩, ?_, ?_⟩
    · intro next hnext
      rcases List.mem_cons.mp hnext with rfl | hnext
      · exact hfirst
      · exact (hall next hnext).1
    · rw [List.map_cons, List.nodup_cons]
      refine ⟨?_, hnodup⟩
      intro hmem
      obtain ⟨next, hnext, heq⟩ := List.mem_map.mp hmem
      exact (hall next hnext).2 heq.symm

/-- With new ids an import succeeds exactly when all its records can be created. -/
theorem importLoop_isOk (hapart : ∀ i i', i ≠ i' → ∀ j j', ids i j ≠ ids i' j')
    (hnew : ∀ k, i ≤ k → NewOrderIds db (ids k)) :
    (∃ all, (importLoop c debug now ids mapping db i records created).2 = .ok all) ↔
      AllImportable c mapping db records := by
  induction records generalizing db i created with
  | nil => simp [importLoop, AllImportable]
  | cons rec rest ih =>
      rw [importLoop, allImportable_cons]
      unfold inputOf
      cases hinput : workOrderInputFromFields c (mapping.toCanonical rec) with
      | none => simp
      | some input =>
          have hcreate := @createWorkOrder_isOk c db (now i) (ids i) input (hnew i le_rfl)
          dsimp only
          cases hres : createWorkOrder c db (now i) (ids i) input with
          | error e =>
              rw [hres] at hcreate
              simp only [reduceCtorEq, exists_false, false_iff] at hcreate ⊢
              rintro ⟨input', hinput', hfirst, -⟩
              cases hinput'
              exact hcreate hfirst
          | ok res =>
              have hadds := adds_of_createWorkOrder hres
              have hcreatable : Creatable db input := hcreate.mp ⟨res, hres⟩
              dsimp only
              rw [ih]
              · simp only [AllImportable, hadds.creatable_iff]
                constructor
                · intro hrest
                  exact ⟨input, rfl, hcreatable, hrest⟩
                · rintro ⟨input', hinput', -, hrest⟩
                  cases hinput'
                  exact hrest
              · intro k hk
                apply hadds.newOrderIds
                · exact hnew k (by omega)
                · exact hapart i k (by omega)

variable (c debug mapping db now ids records created i) in
/-- An import creates its orders at the end of the table; one that succeeds creates an order
for each record and returns their ids. -/
theorem importLoop_adds :
    ∃ orders, (importLoop c debug now ids mapping db i records created).1.workOrders.rows =
        db.workOrders.rows ++ orders ∧
      ∀ all, (importLoop c debug now ids mapping db i records created).2 = .ok all →
        orders.length = records.length ∧ all.length = created.length + records.length := by
  induction records generalizing db i created with
  | nil =>
      refine ⟨[], (List.append_nil _).symm, ?_⟩
      rintro all hall
      cases hall
      exact ⟨rfl, rfl⟩
  | cons rec rest ih =>
      rw [importLoop]
      split
      · refine ⟨[], (List.append_nil _).symm, ?_⟩
        intro all hall
        cases hall
      · rename_i input _
        split
        · refine ⟨[], (List.append_nil _).symm, ?_⟩
          intro all hall
          cases hall
        · rename_i db' r hok
          have horders := (adds_of_createWorkOrder hok).orders
          obtain ⟨orders, hrows, hlength⟩ := ih db' (created ++ [r.id]) (i + 1)
          refine ⟨orderRow (now i) (ids i 0) input :: orders, ?_, ?_⟩
          · rw [hrows, horders, List.append_assoc]
            rfl
          · intro all hall
            obtain ⟨horders, hall⟩ := hlength all hall
            simp only [List.length_cons, List.length_append, List.length_nil] at hall ⊢
            omega

/-- An import that fails at its first record creates nothing. -/
theorem importLoop_of_not_importable {rec : Json} {rest : List Json}
    (hnew : NewOrderIds db (ids i)) (h : ¬ Importable c mapping db rec) :
    (importLoop c debug now ids mapping db i (rec :: rest) created).1 = db := by
  rw [importLoop]
  split
  · rfl
  · rename_i input hinput
    split
    · rfl
    · rename_i hok
      exact absurd ⟨input, hinput, (createWorkOrder_isOk hnew).mp ⟨_, hok⟩⟩ h

/-- An import whose first record can be created adds an order, whatever follows. -/
theorem importLoop_of_importable {rec : Json} {rest : List Json}
    (hnew : NewOrderIds db (ids i)) (h : Importable c mapping db rec) :
    db.workOrders.rows.length <
      (importLoop c debug now ids mapping db i (rec :: rest) created).1.workOrders.rows.length := by
  obtain ⟨input, hinput, hcreatable⟩ := h
  obtain ⟨res, hres⟩ := (@createWorkOrder_isOk c db (now i) (ids i) input hnew).mpr hcreatable
  rw [importLoop]
  simp only [show workOrderInputFromFields c (mapping.toCanonical rec) = some input from hinput,
    hres]
  obtain ⟨orders, hrows, -⟩ := importLoop_adds c debug mapping res.1 now ids rest
    (created ++ [res.2.id]) (i + 1)
  rw [hrows, (adds_of_createWorkOrder hres).orders]
  simp only [List.length_append, List.length_cons, List.length_nil]
  omega

/-- An import leaves the tables alone exactly when its first record cannot be created. -/
theorem importLoop_same_iff {rec : Json} {rest : List Json} (hnew : NewOrderIds db (ids i)) :
    let after := (importLoop c debug now ids mapping db i (rec :: rest) created).1
    (after.workOrders = db.workOrders ∧ after.woOperations = db.woOperations ∧
        after.outbox = db.outbox) ↔ ¬ Importable c mapping db rec := by
  intro after
  constructor
  · rintro ⟨horders, -⟩ himportable
    have hlt : db.workOrders.rows.length < after.workOrders.rows.length :=
      importLoop_of_importable hnew himportable
    rw [horders] at hlt
    exact lt_irrefl _ hlt
  · intro hfirst
    have hsame : after = db := importLoop_of_not_importable hnew hfirst
    rw [hsame]
    exact ⟨rfl, rfl, rfl⟩

end Loop

section Import

variable {c : Codec} {debug : RepoError → String} {store : ErpStore} {now : ℕ → Int}
  {ids : ℕ → ℕ → String} {logNow : Int} {logId : String} {req : ErpImportRequest}

/-- A request that is refused has created nothing, and the new line of the log has the number
of the orders that were created. -/
structure Truthful (before after : ErpStore) (result : Except ApiErr ErpImportResult) :
    Prop where
  untouched : ∀ e, result = .error e → after.db.workOrders = before.db.workOrders ∧
    after.db.woOperations = before.db.woOperations ∧ after.db.outbox = before.db.outbox
  logged : ∀ r ∈ after.cmms.erpSyncLog, r ∉ before.cmms.erpSyncLog →
    ∃ orders, after.db.workOrders.rows = before.db.workOrders.rows ++ orders ∧
      r.recordCount.toInt = orders.length

/-- The request reaches its records, with this mapping. -/
def ReachesRecords (cmms : CmmsDatabase) (req : ErpImportRequest) (mapping : FieldMapping) :
    Prop :=
  ∃ conn, cmms.erpConnections.lookup req.connectionId = some conn ∧
    importMapping conn = .ok mapping ∧ req.entity = "work_order"

/-- All records can be imported and their number fits the log, or the first cannot. -/
def Whole (c : Codec) (store : ErpStore) (req : ErpImportRequest) (mapping : FieldMapping) :
    Prop :=
  AllImportable c mapping store.db req.records ∧ req.records.length < 2 ^ 31 ∨
    ∀ rec ∈ req.records.head?, ¬ Importable c mapping store.db rec

theorem truthful_refl (store : ErpStore) (result : Except ApiErr ErpImportResult) :
    Truthful store store result :=
  ⟨fun _ _ => ⟨rfl, rfl, rfl⟩, fun _ hr hnew => absurd hr hnew⟩

/-- A line with a new id is appended to the log of an existing connection. -/
theorem insertSyncLog_of_new {cmms : CmmsDatabase} {conn : ErpConnectionRow}
    (hlog : ∀ r ∈ cmms.erpSyncLog, r.id ≠ logId) (logNow : Int) {connectionId : String}
    (hconn : cmms.erpConnections.lookup connectionId = some conn) (recordCount : Int32)
    (status : String) (detail : Option String) (entity : String) :
    ∃ erpSyncLog, cmms.erpSyncLog.insert? ⟨logId, some connectionId, "import", entity,
        recordCount, status, detail, logNow⟩ = some erpSyncLog ∧
      insertSyncLog cmms logNow logId connectionId "import" entity recordCount status detail =
        .ok { cmms with erpSyncLog } := by
  obtain ⟨erpSyncLog, hins⟩ : ∃ t, cmms.erpSyncLog.insert? ⟨logId, some connectionId, "import",
      entity, recordCount, status, detail, logNow⟩ = some t := Table.exists_insert? hlog
  refine ⟨erpSyncLog, hins, ?_⟩
  have hpresent : (cmms.erpConnections.lookup connectionId).isSome = true := by simp [hconn]
  unfold insertSyncLog
  simp only [hins, optionalRef, hpresent, if_true]

/-- The line of a successful import is true when the number of its orders fits. -/
theorem truthful_success {db : Database} {conn : ErpConnectionRow}
    (hlog : ∀ r ∈ store.cmms.erpSyncLog, r.id ≠ logId)
    (hconn : store.cmms.erpConnections.lookup req.connectionId = some conn)
    {orders : List WorkOrderRow} {created : List String}
    (horders : db.workOrders.rows = store.db.workOrders.rows ++ orders)
    (hlength : created.length = orders.length) :
    Truthful store (logImport { store with db } logNow logId req (.ok created)).1
        (logImport { store with db } logNow logId req (.ok created)).2 ↔
      orders.length < 2 ^ 31 := by
  obtain ⟨erpSyncLog, hins, hok⟩ := insertSyncLog_of_new hlog logNow hconn
    (Int32.ofNat created.length) "success" none req.entity
  simp only [logImport, hok]
  constructor
  · intro h
    obtain ⟨orders', horders', hcount⟩ := h.logged _ ((Table.mem_insert? hins).mpr (Or.inr rfl))
      (fun hmem => hlog _ hmem rfl)
    obtain rfl : orders' = orders := List.append_cancel_left (horders'.symm.trans horders)
    have hlt := (Int32.ofNat created.length).toInt_lt
    rw [hcount] at hlt
    omega
  · intro hlt
    refine ⟨fun e he => (nomatch he), ?_⟩
    intro r hr hold
    refine ⟨orders, horders, ?_⟩
    rcases (Table.mem_insert? hins).mp hr with hr | rfl
    · exact absurd hr hold
    · dsimp only
      rw [Int32.toInt_ofNat_of_lt (by omega), hlength]

/-- The answer and the line of a failed import are true when it has created nothing. -/
theorem truthful_failure {db : Database} {conn : ErpConnectionRow}
    (hlog : ∀ r ∈ store.cmms.erpSyncLog, r.id ≠ logId)
    (hconn : store.cmms.erpConnections.lookup req.connectionId = some conn) (detail : String) :
    Truthful store (logImport { store with db } logNow logId req (.error detail)).1
        (logImport { store with db } logNow logId req (.error detail)).2 ↔
      db.workOrders = store.db.workOrders ∧ db.woOperations = store.db.woOperations ∧
        db.outbox = store.db.outbox := by
  obtain ⟨erpSyncLog, hins, hok⟩ := insertSyncLog_of_new hlog logNow hconn 0 "error"
    (some detail) req.entity
  simp only [logImport, hok]
  constructor
  · intro h
    exact h.untouched _ rfl
  · intro h
    refine ⟨fun _ _ => h, ?_⟩
    intro r hr hold
    refine ⟨[], by rw [h.1, List.append_nil], ?_⟩
    rcases (Table.mem_insert? hins).mp hr with hr | rfl
    · exact absurd hr hold
    · rfl

/-- When all records can be imported, only their number matters. -/
theorem whole_iff_of_allImportable {mapping : FieldMapping}
    (h : AllImportable c mapping store.db req.records) :
    Whole c store req mapping ↔ req.records.length < 2 ^ 31 := by
  constructor
  · rintro (⟨-, hlt⟩ | hfirst)
    · exact hlt
    · cases hrecords : req.records with
      | nil => simp
      | cons rec rest =>
          rw [hrecords] at h hfirst
          obtain ⟨input, hinput, hcreatable, -⟩ := allImportable_cons.mp h
          exact absurd ⟨input, hinput, hcreatable⟩ (hfirst rec rfl)
  · intro hlt
    exact Or.inl ⟨h, hlt⟩

theorem whole_iff_of_not_allImportable {mapping : FieldMapping}
    (h : ¬ AllImportable c mapping store.db req.records) :
    Whole c store req mapping ↔
      ∀ rec ∈ req.records.head?, ¬ Importable c mapping store.db rec := by
  constructor
  · rintro (⟨hall, -⟩ | hfirst)
    · exact absurd hall h
    · exact hfirst
  · exact Or.inr

/-- An import that reaches its records is all or nothing and logged truthfully exactly when all
of them can be imported or the first cannot. -/
theorem importWorkOrders_truthful_iff (hids : NewImportIds store.db ids)
    (hlog : ∀ r ∈ store.cmms.erpSyncLog, r.id ≠ logId) {conn : ErpConnectionRow}
    (hconn : store.cmms.erpConnections.lookup req.connectionId = some conn)
    {mapping : FieldMapping} {db : Database} {result : Except String (List String)}
    (hres : importWorkOrders c debug store.db now ids mapping req.records = (db, result)) :
    Truthful store (logImport { store with db } logNow logId req result).1
        (logImport { store with db } logNow logId req result).2 ↔
      Whole c store req mapping := by
  unfold importWorkOrders at hres
  obtain ⟨orders, horders, hall⟩ := importLoop_adds c debug mapping store.db now ids
    req.records [] 0
  have hisOk := @importLoop_isOk c debug mapping store.db now ids req.records [] 0 hids.apart
    (fun k (_ : 0 ≤ k) => hids.each k)
  rw [hres] at horders hall hisOk
  cases result with
  | ok all =>
      obtain ⟨hlength, hids⟩ := hall all rfl
      rw [truthful_success hlog hconn horders (by simp [hlength, hids]), hlength,
        whole_iff_of_allImportable (hisOk.mp ⟨all, rfl⟩)]
  | error detail =>
      have hnot : ¬ AllImportable c mapping store.db req.records := by
        rw [← hisOk]
        rintro ⟨all, hall⟩
        cases hall
      rw [truthful_failure hlog hconn detail, whole_iff_of_not_allImportable hnot]
      cases hrecords : req.records with
      | nil =>
          rw [hrecords] at hnot
          exact absurd ⟨[], rfl, by simp⟩ hnot
      | cons rec rest =>
          rw [hrecords] at hres
          have hsame := @importLoop_same_iff c debug mapping store.db now ids [] 0 rec rest
            (hids.each 0)
          rw [hres] at hsame
          simpa using hsame

/-- With new ids an import is all or nothing and logged truthfully exactly when it is refused
before its records, all of these can be imported, or the first one cannot. -/
theorem import_whole_iff (hids : NewImportIds store.db ids)
    (hlog : ∀ r ∈ store.cmms.erpSyncLog, r.id ≠ logId) :
    Truthful store (importRecords c debug store now ids logNow logId req).1
        (importRecords c debug store now ids logNow logId req).2 ↔
      ∀ mapping, ReachesRecords store.cmms req mapping → Whole c store req mapping := by
  unfold importRecords getConnectionSecret ReachesRecords
  cases hconn : store.cmms.erpConnections.lookup req.connectionId with
  | none => simp [truthful_refl]
  | some conn =>
      dsimp only
      cases hmapping : importMapping conn with
      | error e => simp [truthful_refl, hmapping]
      | ok mapping =>
          by_cases hentity : req.entity = "work_order"
          · dsimp only
            cases hres : importWorkOrders c debug store.db now ids mapping req.records with
            | mk db result => ?_
            rw [if_pos hentity, importWorkOrders_truthful_iff hids hlog hconn hres]
            constructor
            · rintro hwhole mapping' ⟨conn', hconn', hmapping', -⟩
              cases hconn'
              rw [hmapping] at hmapping'
              cases hmapping'
              exact hwhole
            · intro h
              exact h mapping ⟨conn, rfl, hmapping, hentity⟩
          · simp [truthful_refl, hentity]

/-- Ids of the shape `a..ab..b`, one family for each record. -/
def pairIds (i j : ℕ) : String :=
  String.ofList (List.replicate (i + 1) 'a' ++ List.replicate (j + 1) 'b')

theorem pairIds_inj {i j i' j' : ℕ} (h : pairIds i j = pairIds i' j') : i = i' ∧ j = j' := by
  have hlists := congrArg String.toList h
  simp only [pairIds, String.toList_ofList] at hlists
  have ha := congrArg (List.count 'a') hlists
  have hb := congrArg (List.count 'b') hlists
  simp only [List.count_append, List.count_replicate] at ha hb
  simp at ha hb
  exact ⟨ha, hb⟩

theorem newImportIds_pairIds {db : Database} (horders : db.workOrders = ∅)
    (hops : db.woOperations = ∅) (hout : db.outbox = ∅) : NewImportIds db pairIds := by
  constructor
  · intro i i' hne j j' heq
    exact hne (pairIds_inj heq).1
  · intro i
    refine ⟨fun j j' heq => (pairIds_inj heq).2, ?_, ?_, ?_⟩
    · intro r hr
      rw [horders] at hr
      exact absurd hr (Table.notMem_empty r)
    · intro r hr
      rw [hops] at hr
      exact absurd hr (Table.notMem_empty r)
    · intro r hr
      rw [hout] at hr
      exact absurd hr (Table.notMem_empty r)

/-- A plant with one part, and a connection whose names are its own. -/
def connectedPlant : ErpStore where
  db := { parts := {"part"} }
  cmms := { erpConnections := ⟨[⟨"erp", "http://erp", none, .obj [("fields", .obj
    [("part_id", .str "Item"), ("qty_ordered", .str "Qty"), ("wo_number", .str "No")])],
    "both", true⟩], by decide⟩ }

def externalOrder (number : String) : Json :=
  .obj [("Item", .str "part"), ("No", .str number), ("Qty", .str "10")]

/-- The second record has the number of the first. -/
def repeatedNumber : ErpImportRequest where
  connectionId := "erp"
  entity := "work_order"
  records := [externalOrder "WO-1", externalOrder "WO-1"]

/-- The import is refused and logged with no record, and the first order is there. -/
theorem import_repeatedNumber_keeps_order :
    ¬ ∀ (c : Codec) (debug : RepoError → String) (store : ErpStore) (now : ℕ → Int)
        (ids : ℕ → ℕ → String) (logNow : Int) (logId : String) (req : ErpImportRequest),
        NewImportIds store.db ids → (∀ r ∈ store.cmms.erpSyncLog, r.id ≠ logId) →
        Truthful store (importRecords c debug store now ids logNow logId req).1
          (importRecords c debug store now ids logNow logId req).2 := by
  intro hall
  have htruthful := hall Codec.sample (fun _ => "Conflict") connectedPlant (fun _ => 0) pairIds 0
    "log" repeatedNumber (newImportIds_pairIds rfl rfl rfl)
    (fun r hr => absurd hr (Table.notMem_empty r))
  have hone : (importRecords Codec.sample (fun _ => "Conflict") connectedPlant (fun _ => 0) pairIds
      0 "log" repeatedNumber).1.db.workOrders.rows.length = 1 := by
    decide +kernel
  have huntouched := (htruthful.untouched ⟨400, "import_failed", "record 1: Conflict"⟩ (by rfl)).1
  rw [huntouched] at hone
  exact absurd hone (by decide)

/-- Two orders with different numbers. -/
def twoOrders : ErpImportRequest :=
  { repeatedNumber with records := [externalOrder "WO-1", externalOrder "WO-2"] }

def orderOf (number : String) : WorkOrderInput :=
  { woNumber := number, partId := "part", routingId := none, qtyOrdered := ⟨10, 0⟩,
    priority := none, plannedStart := none, plannedEnd := none }

theorem creatable_orderOf (number : String) : Creatable connectedPlant.db (orderOf number) where
  free r hr := absurd hr (Table.notMem_empty r)
  part := Finset.mem_singleton_self _
  routing k hk := absurd hk (Option.not_mem_none k)
  opNos := List.nodup_nil
  operations _ hop := absurd hop List.not_mem_nil

/-- Both orders are created, and the log says so. -/
theorem import_twoOrders_whole :
    ((importRecords Codec.sample (fun _ => "Conflict") connectedPlant (fun _ => 0) pairIds 0 "log"
        twoOrders).2.toOption.map ErpImportResult.imported = some 2) ∧
      Truthful connectedPlant
        (importRecords Codec.sample (fun _ => "Conflict") connectedPlant (fun _ => 0) pairIds 0
          "log" twoOrders).1
        (importRecords Codec.sample (fun _ => "Conflict") connectedPlant (fun _ => 0) pairIds 0
          "log" twoOrders).2 := by
  refine ⟨by decide +kernel, (import_whole_iff (newImportIds_pairIds rfl rfl rfl)
    (fun r hr => absurd hr (Table.notMem_empty r))).mpr ?_⟩
  rintro mapping ⟨conn, hconn, hmapping, -⟩
  cases hconn
  cases hmapping
  refine Or.inl ⟨⟨[orderOf "WO-1", orderOf "WO-2"], rfl, ?_, by decide⟩, by decide⟩
  intro input hinput
  rcases List.mem_pair.mp hinput with rfl | rfl
  · exact creatable_orderOf _
  · exact creatable_orderOf _

end Import

end ElectronixMes.Sync
