import ElectronixMes.Execution.Lifecycles
import ElectronixMes.Edge.Ingest
import ElectronixMes.Db.Repo

/-!
# Counts and the ledger

The totals of an operation are maintained next to the ledger rows they sum up:
a count inserts its row and adds to the totals in one transaction. Here counts,
operation requests, machine signals, new orders and deletes of master data are
interleaved statement by statement.

## Implementation notes

From the update of its totals on, a count's transaction holds the operation's
row: other updates of that row wait. What a transaction has written is local to
its session until the commit. The share locks of the ledger row's foreign keys
only delay deletes, and the operation's own reference to the work center refuses
them anyway, so they are not modelled. A machine signal is one statement with
the source row that was looked up before, whatever has happened to it since.
-/

namespace ElectronixMes.Execution.Ledger

open Db ElectronixMes.Core Edge Relational Serde Transition

/-- The committed database, and for each operation the session that holds its row. -/
structure Store where
  db : Database
  locks : String → Option ℕ

/-- The clock, a drawn id, and whether the connection is lost instead. -/
structure Input where
  now : Int
  id : String
  lost : Bool := false

/-- Requests that consist of one statement or are one transaction. -/
inductive Statement where
  | signal (source : SignalSourceRow) (sig : RawSignal)
  | deleteWorkCenter (id : String)
  | deleteArea (id : String)
  | deleteSite (id : String)
  | createOrder (c : Codec) (ids : ℕ → String) (input : WorkOrderInput)

inductive Request where
  | count (opId : String) (input : CountInput)
  | lifecycle (r : Execution.Request)
  | statement (s : Statement)

inductive Phase where
  | readOperation (opId : String) (input : CountInput)
  | insertRow (opId wcId : String) (input : CountInput)
  | updateTotals (row : ProductionCountRow) (opId : String)
  | commit (row : ProductionCountRow) (opId : String) (updated : WoOperationRow)
  | lifecycle (ph : Execution.Phase)
  | statement (s : Statement)
  | ended (reply : Except ApiErr (Option WoOperationRow))

def Request.phase : Request → Phase
  | count opId input =>
      match input.check with
      | .error e => .ended (.error e)
      | .ok () => .readOperation opId input
  | lifecycle r => .lifecycle r.phase
  | statement s => .statement s

/-- The session must wait for the operation's row. -/
def Store.waits (st : Store) (who : ℕ) (opId : String) : Bool :=
  (st.locks opId).any (· ≠ who)

def Store.lock (st : Store) (who : ℕ) (opId : String) : Store :=
  { st with locks := Function.update st.locks opId (some who) }

def Store.unlock (st : Store) (opId : String) : Store :=
  { st with locks := Function.update st.locks opId none }

def failed (st : Store) (e : ApiErr) : Store × Phase := (st, .ended (.error e))

/-- The outcome of a request that is one statement. -/
def Statement.run (db : Database) (now : Int) (id : String) : Statement → Except RepoError Database
  | signal source sig => storeSignal db id source sig
  | deleteWorkCenter wcId => Db.deleteWorkCenter db wcId
  | deleteArea areaId => Db.deleteArea db areaId
  | deleteSite siteId => Db.deleteSite db siteId
  | createOrder c ids input => (createWorkOrder c db now ids input).map Prod.fst

/-- The operation whose row a session of the lifecycles is about to update. -/
def updates? : Execution.Phase → Option String
  | .writeOperation opId _ _ _ => some opId
  | _ => none

/-- One statement of a session whose connection holds. -/
def run (who : ℕ) (input : Input) (st : Store) : Phase → Store × Phase
  | .readOperation opId count =>
      match getOperation st.db opId with
      | .error e => failed st (repoErr e)
      | .ok op =>
          match op.workCenterId with
          | none => failed st ⟨400, "no_work_center",
              "operation has no work center to attribute counts to"⟩
          | some wcId => (st, .insertRow opId wcId count)
  | .insertRow opId wcId count =>
      let row := countRow input.id opId wcId count.good count.scrap count.scrapReasonId
        (count.ts.getD input.now)
      match insertCount st.db row with
      | .error e => failed st (repoErr (mapSqlx e))
      | .ok _ => (st, .updateTotals row opId)
  | .updateTotals row opId =>
      if st.waits who opId then (st, .updateTotals row opId)
      else
        match st.db.woOperations.lookup opId with
        | none => failed st (repoErr .notFound)
        | some op =>
            match addCount op row.good row.scrap with
            | .error e => failed st (repoErr (mapSqlx e))
            | .ok updated => (st.lock who opId, .commit row opId updated)
  | .commit row opId updated =>
      match st.db.productionCounts.insert? row with
      | none =>
          failed (st.unlock opId)
            (repoErr (mapSqlx (.uniqueViolation "production_counts_pkey")))
      | some productionCounts =>
          ({ st.unlock opId with
              db := { st.db with
                productionCounts
                woOperations := st.db.woOperations.put updated } },
            .ended (.ok (some updated)))
  | .lifecycle ph =>
      if (updates? ph).any (st.waits who) then (st, .lifecycle ph)
      else
        let res := Execution.exec who input.now st.db ph
        ({ st with db := res.1 }, .lifecycle res.2)
  | .statement s =>
      match s.run st.db input.now input.id with
      | .error e => failed st (repoErr e)
      | .ok db => ({ st with db }, .ended (.ok none))
  | .ended reply => (st, .ended reply)

/-- A lost connection rolls an open transaction back and releases its row. -/
def rollback (st : Store) : Phase → Store × Phase
  | .commit _ opId _ => failed (st.unlock opId) ⟨500, "internal", "database error"⟩
  | .ended reply => (st, .ended reply)
  | _ => failed st ⟨500, "internal", "database error"⟩

def exec (who : ℕ) (input : Input) (st : Store) (ph : Phase) : Store × Phase :=
  if input.lost then rollback st ph else run who input st ph

abbrev State := Sessions Store Phase

def step : State → Move Request Input → State := Sessions.step Request.phase exec

/-- The first `n` statements of a session that runs alone and keeps its connection. -/
def alone (now : Int) (id : String) : ℕ → Store × Phase → Store × Phase
  | 0, p => p
  | n + 1, p => alone now id n (exec 0 { now, id } p.1 p.2)

theorem alone_ended (now : Int) (id : String) (n : ℕ) (st : Store)
    (reply : Except ApiErr (Option WoOperationRow)) :
    alone now id n (st, .ended reply) = (st, .ended reply) := by
  induction n with
  | zero => rfl
  | succ n ih => exact ih

theorem alone_succ (now : Int) (id : String) (n : ℕ) (p : Store × Phase) :
    alone now id (n + 1) p = alone now id n (exec 0 { now, id } p.1 p.2) := rfl

/-- Alone, a count is the handler's. -/
theorem alone_count (db : Database) (now : Int) (id opId : String) (count : CountInput) :
    alone now id 4 (⟨db, fun _ => none⟩, (Request.count opId count).phase) =
      (⟨(Edge.recordCount db now id opId count).1, fun _ => none⟩,
        .ended ((Edge.recordCount db now id opId count).2.map some)) := by
  rw [Request.phase, Edge.recordCount]
  cases count.check with
  | error e => exact alone_ended now id 4 _ _
  | ok =>
      dsimp only
      rw [alone_succ]
      simp only [exec, run, Bool.false_eq_true, if_false]
      cases getOperation db opId with
      | error e => exact alone_ended now id 3 _ _
      | ok op =>
          dsimp only
          cases op.workCenterId with
          | none => exact alone_ended now id 3 _ _
          | some wcId =>
              dsimp only [Db.recordCount]
              rw [alone_succ]
              simp only [exec, run, Bool.false_eq_true, if_false]
              cases hins : insertCount db (countRow id opId wcId count.good count.scrap
                  count.scrapReasonId (count.ts.getD now)) with
              | error e => exact alone_ended now id 2 _ _
              | ok counts =>
                  dsimp only
                  rw [alone_succ]
                  have hfree : Store.waits ⟨db, fun _ => none⟩ 0 opId = false := rfl
                  simp only [exec, run, Bool.false_eq_true, if_false, hfree]
                  cases db.woOperations.lookup opId with
                  | none => exact alone_ended now id 1 _ _
                  | some op =>
                      dsimp only [countRow]
                      cases addCount op count.good count.scrap with
                      | error e => exact alone_ended now id 1 _ _
                      | ok updated =>
                          have hrow := insertCount_ok hins
                          rw [countRow] at hrow
                          simp [alone, exec, run, Store.lock, Store.unlock, hrow, Except.map]

/-- The sum of a column over the ledger rows of an operation. -/
def booked (db : Database) (opId : String) (column : ProductionCountRow → Int32) : Int :=
  ((db.productionCounts.rows.filter fun r => r.woOperationId = some opId).map fun r =>
    (column r).toInt).sum

/-- The operation is stored and stands at the work center. -/
def Placed (db : Database) (opId wcId : String) : Prop :=
  ∃ o, db.woOperations.lookup opId = some o ∧ o.workCenterId = some wcId

/-- A ledger row of the operation, with a reason for its scrap. -/
def RowOf (opId : String) (r : ProductionCountRow) : Prop :=
  r.woOperationId = some opId ∧ (0 < r.scrap → r.scrapReasonId.isSome)

/-- The totals are the sums of the ledger, and every row of an operation has a
reason for its scrap and stands at the operation's work center. -/
structure Balanced (db : Database) : Prop where
  totals : ∀ o ∈ db.woOperations, o.qtyGood.toInt = booked db o.id ProductionCountRow.good ∧
    o.qtyScrap.toInt = booked db o.id ProductionCountRow.scrap
  rows : ∀ r ∈ db.productionCounts, ∀ opId, r.woOperationId = some opId →
    RowOf opId r ∧ Placed db opId r.workCenterId

section Balanced

variable {db db' : Database}

theorem booked_congr (h : db'.productionCounts = db.productionCounts) (opId : String)
    (column : ProductionCountRow → Int32) : booked db' opId column = booked db opId column := by
  rw [booked, booked, h]

/-- Writing operations anew, with their totals and their place, keeps the balance. -/
theorem Balanced.of_operations (h : Balanced db)
    (hcounts : db'.productionCounts = db.productionCounts)
    (hold : ∀ o ∈ db'.woOperations, (∃ o' ∈ db.woOperations, o'.id = o.id ∧
        o'.qtyGood = o.qtyGood ∧ o'.qtyScrap = o.qtyScrap) ∨
      (∀ o' ∈ db.woOperations, o'.id ≠ o.id) ∧ o.qtyGood = 0 ∧ o.qtyScrap = 0)
    (hplaced : ∀ opId wcId, Placed db opId wcId → Placed db' opId wcId) : Balanced db' := by
  refine ⟨?_, ?_⟩
  · intro o ho
    rw [booked_congr hcounts, booked_congr hcounts]
    rcases hold o ho with ⟨o', ho', hid, hgood, hscrap⟩ | ⟨hnew, hgood, hscrap⟩
    · rw [← hid, ← hgood, ← hscrap]
      exact h.totals o' ho'
    · -- no row of the ledger can name an operation that was not there
      have hnone : db.productionCounts.rows.filter (fun r => r.woOperationId = some o.id) = [] := by
        apply List.filter_eq_nil_iff.mpr
        intro r hr hop
        obtain ⟨-, o', ho', -⟩ := h.rows r hr o.id (of_decide_eq_true hop)
        obtain ⟨hmem, hid⟩ := Table.lookup_eq_some.mp ho'
        exact hnew o' hmem hid
      rw [hgood, hscrap, booked, booked, hnone]
      exact ⟨rfl, rfl⟩
  · intro r hr opId hop
    rw [hcounts] at hr
    obtain ⟨hrow, hplace⟩ := h.rows r hr opId hop
    exact ⟨hrow, hplaced opId _ hplace⟩

theorem placed_put {o o' : WoOperationRow} {opId wcId : String} {id : String}
    (ho : db.woOperations.lookup id = some o) (hid : o'.id = o.id)
    (hwc : o'.workCenterId = o.workCenterId)
    (hops : db'.woOperations = db.woOperations.put o') (h : Placed db opId wcId) :
    Placed db' opId wcId := by
  obtain ⟨p, hp, hpwc⟩ := h
  obtain ⟨hmem, hkey⟩ := Table.lookup_eq_some.mp ho
  have hid' : Keyed.key o' = id := hid.trans hkey
  by_cases heq : opId = id
  · subst heq
    rw [ho, Option.some.injEq] at hp
    subst hp
    refine ⟨o', ?_, hwc.trans hpwc⟩
    rw [hops, ← hid']
    exact Table.lookup_put_self _ _
  · refine ⟨p, ?_, hpwc⟩
    rw [hops, Table.lookup_put_of_ne (by rw [hid']; exact heq)]
    exact hp

/-- An update of an operation that leaves its totals and its place alone. -/
theorem Balanced.put (h : Balanced db) {o o' : WoOperationRow} {id : String}
    (ho : db.woOperations.lookup id = some o) (hid : o'.id = o.id)
    (hwc : o'.workCenterId = o.workCenterId) (hgood : o'.qtyGood = o.qtyGood)
    (hscrap : o'.qtyScrap = o.qtyScrap) (hops : db'.woOperations = db.woOperations.put o')
    (hcounts : db'.productionCounts = db.productionCounts) : Balanced db' := by
  refine h.of_operations hcounts ?_ fun opId wcId => placed_put ho hid hwc hops
  intro p hp
  rw [hops] at hp
  rcases Table.mem_put.mp hp with rfl | ⟨hp, -⟩
  · exact Or.inl ⟨o, (Table.lookup_eq_some.mp ho).1, hid.symm, hgood.symm, hscrap.symm⟩
  · exact Or.inl ⟨p, hp, rfl, rfl, rfl⟩

/-- Rows that no operation owns come and go freely. -/
theorem Balanced.of_counts (h : Balanced db) (hops : db'.woOperations = db.woOperations)
    (hrows : ∀ opId, db'.productionCounts.rows.filter (fun r => r.woOperationId = some opId) =
      db.productionCounts.rows.filter fun r => r.woOperationId = some opId) : Balanced db' := by
  refine ⟨?_, ?_⟩
  · intro o ho
    rw [booked, booked, hrows]
    rw [hops] at ho
    exact h.totals o ho
  · intro r hr opId hop
    have hmem : r ∈ db.productionCounts.rows.filter fun r => r.woOperationId = some opId := by
      rw [← hrows]
      exact List.mem_filter.mpr ⟨hr, decide_eq_true hop⟩
    obtain ⟨hrow, o, ho, hwc⟩ := h.rows r (List.mem_filter.mp hmem).1 opId hop
    exact ⟨hrow, o, hops ▸ ho, hwc⟩

/-- A commit adds one row and its column values. -/
theorem Balanced.commit (h : Balanced db) {row : ProductionCountRow} {opId : String}
    {o o' : WoOperationRow} {counts : Table ProductionCountRow} (hrow : RowOf opId row)
    (ho : db.woOperations.lookup opId = some o) (hwc : o.workCenterId = some row.workCenterId)
    (hadd : addCount o row.good row.scrap = .ok o')
    (hins : db.productionCounts.insert? row = some counts) :
    Balanced { db with
      productionCounts := counts
      woOperations := db.woOperations.put o' } := by
  obtain ⟨hframe, hgood, hscrap⟩ := addCount_ok hadd
  obtain ⟨hmem, hkey⟩ := Table.lookup_eq_some.mp ho
  have hid : o'.id = o.id := by rw [hframe]
  have hwc' : o'.workCenterId = o.workCenterId := by rw [hframe]
  have hbooked (id : String) (column : ProductionCountRow → Int32) :
      booked { db with productionCounts := counts, woOperations := db.woOperations.put o' } id
          column =
        booked db id column + if id = opId then (column row).toInt else 0 := by
    simp only [booked, Table.rows_insert? hins, List.filter_append, List.map_append,
      List.sum_append]
    congr 1
    by_cases hop : id = opId
    · simp [hop, hrow.1]
    · have hne : ¬ opId = id := fun heq => hop heq.symm
      simp [hop, hne, hrow.1]
  have hplaced (id wcId : String) (hp : Placed db id wcId) :
      Placed { db with productionCounts := counts, woOperations := db.woOperations.put o' } id
        wcId :=
    placed_put ho hid hwc' rfl hp
  refine ⟨?_, ?_⟩
  · intro p hp
    rw [hbooked, hbooked]
    rcases Table.mem_put.mp hp with rfl | ⟨hp, hne⟩
    · have hpid : p.id = opId := hid.trans hkey
      obtain ⟨hg, hs⟩ := h.totals o hmem
      have hoid : o.id = opId := hkey
      rw [hoid] at hg hs
      rw [if_pos hpid, if_pos hpid, hpid, hgood, hscrap, hg, hs]
      exact ⟨rfl, rfl⟩
    · have hpid : p.id ≠ opId := fun heq => hne (heq.trans (hid.trans hkey).symm)
      rw [if_neg hpid, if_neg hpid, add_zero, add_zero]
      exact h.totals p hp
  · intro r hr id hop
    rcases (Table.mem_insert? hins).mp hr with hr | rfl
    · obtain ⟨hrow', hplace⟩ := h.rows r hr id hop
      exact ⟨hrow', hplaced id _ hplace⟩
    · obtain rfl : opId = id := Option.some.inj (hrow.1.symm.trans hop)
      exact ⟨hrow, hplaced opId _ ⟨o, ho, hwc⟩⟩

/-- A delete of master data takes no row of an operation. -/
theorem Balanced.cascade (h : Balanced db) (hcascade : Cascaded db db') : Balanced db' := by
  obtain ⟨gone, hops, hfree, hcounts⟩ := hcascade
  refine h.of_counts hops ?_
  intro opId
  rw [hcounts]
  simp only [Table.delete, List.filter_filter]
  apply List.filter_congr
  intro r hr
  by_cases hop : r.woOperationId = some opId
  · obtain ⟨-, o, ho, hwc⟩ := h.rows r hr opId hop
    have hkept := hfree o (Table.lookup_eq_some.mp ho).1 _ hwc
    simp [hop, hkept]
  · simp [hop]

theorem Balanced.signal (h : Balanced db) {id : String} {source : SignalSourceRow}
    {sig : RawSignal} (hstore : storeSignal db id source sig = .ok db') : Balanced db' := by
  obtain ⟨hops, hcounts | ⟨r, hnone, hins⟩⟩ := storeSignal_unowned hstore
  · refine h.of_counts hops fun _ => ?_
    rw [hcounts]
  · refine h.of_counts hops fun opId => ?_
    simp [Table.rows_insert? hins, List.filter_append, hnone]

theorem Balanced.create (h : Balanced db) {c : Codec} {now : Int} {ids : ℕ → String}
    {input : WorkOrderInput} {res : Database × WorkOrderRow}
    (hok : createWorkOrder c db now ids input = .ok res) : Balanced res.1 := by
  obtain ⟨-, -, -, -, -, -, -, hcounts, hkept, hnew⟩ := createWorkOrder_ok hok
  refine h.of_operations hcounts ?_ ?_
  · intro o ho
    by_cases hmem : o ∈ db.woOperations
    · exact Or.inl ⟨o, hmem, rfl, rfl, rfl⟩
    · rcases hnew o ho with hold | hfresh
      · exact absurd hold hmem
      · refine Or.inr ⟨?_, hfresh.qtyGood, hfresh.qtyScrap⟩
        intro o' ho' hid
        exact hmem (Table.eq_of_key_eq (hkept o' ho') ho hid ▸ ho')
  · rintro opId wcId ⟨o, ho, hwc⟩
    obtain ⟨hmem, rfl⟩ := Table.lookup_eq_some.mp ho
    exact ⟨o, Table.lookup_of_mem (hkept o hmem), hwc⟩

end Balanced

section Frame

variable {st st' : Store} {who : ℕ}

/-- What the other sessions see of a statement: operations stay where they are, and
the rows they hold do not change. -/
structure Frame (who : ℕ) (st st' : Store) : Prop where
  operations : ∀ opId o, st.db.woOperations.lookup opId = some o →
    ∃ o', st'.db.woOperations.lookup opId = some o' ∧ o'.workCenterId = o.workCenterId ∧
      ∀ w, st.locks opId = some w → w ≠ who → o' = o
  locks : ∀ opId w, st.locks opId = some w → w ≠ who → st'.locks opId = some w

theorem Frame.of_operations
    (h : ∀ opId o, st.db.woOperations.lookup opId = some o →
      st'.db.woOperations.lookup opId = some o)
    (hlocks : ∀ opId w, st.locks opId = some w → w ≠ who → st'.locks opId = some w) :
    Frame who st st' :=
  ⟨fun opId o ho => ⟨o, h opId o ho, rfl, fun _ _ _ => rfl⟩, hlocks⟩

theorem Frame.refl (who : ℕ) (st : Store) : Frame who st st :=
  .of_operations (fun _ _ ho => ho) fun _ _ hw _ => hw

/-- An update of one operation whose row no other session holds. -/
theorem Frame.put {o o' : WoOperationRow} {id : String}
    (ho : st.db.woOperations.lookup id = some o) (hid : o'.id = o.id)
    (hwc : o'.workCenterId = o.workCenterId)
    (hops : st'.db.woOperations = st.db.woOperations.put o')
    (hheld : ∀ w, st.locks id = some w → w = who)
    (hlocks : ∀ opId w, st.locks opId = some w → w ≠ who → st'.locks opId = some w) :
    Frame who st st' := by
  have hid' : Keyed.key o' = id := hid.trans (Table.lookup_eq_some.mp ho).2
  refine ⟨?_, hlocks⟩
  intro opId p hp
  by_cases heq : opId = id
  · subst heq
    rw [ho, Option.some.injEq] at hp
    subst hp
    refine ⟨o', ?_, hwc, fun w hw hne => absurd (hheld w hw) hne⟩
    rw [hops, ← hid']
    exact Table.lookup_put_self _ _
  · refine ⟨p, ?_, rfl, fun _ _ _ => rfl⟩
    rw [hops, Table.lookup_put_of_ne (by rw [hid']; exact heq)]
    exact hp

theorem Frame.placed (h : Frame who st st') {opId wcId : String}
    (hplaced : Placed st.db opId wcId) : Placed st'.db opId wcId := by
  obtain ⟨o, ho, hwc⟩ := hplaced
  obtain ⟨o', ho', hwc', -⟩ := h.operations opId o ho
  exact ⟨o', ho', hwc'.trans hwc⟩

/-- What a session knows at each of its statements. From the update of the totals
on, the stored operation is the one the new totals were computed from. -/
def Assertion (st : Store) (who : ℕ) : Phase → Prop
  | .readOperation _ input => input.check = .ok ()
  | .insertRow opId wcId input => input.check = .ok () ∧ Placed st.db opId wcId
  | .updateTotals row opId => RowOf opId row ∧ Placed st.db opId row.workCenterId
  | .commit row opId updated => RowOf opId row ∧ st.locks opId = some who ∧
      ∃ o, st.db.woOperations.lookup opId = some o ∧
        o.workCenterId = some row.workCenterId ∧ addCount o row.good row.scrap = .ok updated
  | _ => True

theorem Assertion.stable {i : ℕ} {ph : Phase} (h : Assertion st i ph) (hi : i ≠ who)
    (hframe : Frame who st st') : Assertion st' i ph := by
  cases ph with
  | readOperation opId input => exact h
  | insertRow opId wcId input => exact ⟨h.1, hframe.placed h.2⟩
  | updateTotals row opId => exact ⟨h.1, hframe.placed h.2⟩
  | commit row opId updated =>
      obtain ⟨hrow, hlock, o, ho, hwc, hadd⟩ := h
      obtain ⟨o', ho', -, hsame⟩ := hframe.operations opId o ho
      obtain rfl := hsame i hlock hi
      exact ⟨hrow, hframe.locks opId i hlock hi, o', ho', hwc, hadd⟩
  | lifecycle ph => trivial
  | statement s => trivial
  | ended reply => trivial

theorem assertion_phase (st : Store) (who : ℕ) (r : Request) : Assertion st who r.phase := by
  cases r with
  | count opId input =>
      simp only [Request.phase]
      split
      · trivial
      · rename_i hcheck
        exact hcheck
  | lifecycle r => trivial
  | statement s => trivial

/-- Releasing a row that the session holds. -/
theorem unlock_locks {opId : String} (hlock : st.locks opId = some who) (id : String) (w : ℕ)
    (hw : st.locks id = some w) (hne : w ≠ who) : (st.unlock opId).locks id = some w := by
  have hid : id ≠ opId := by
    rintro rfl
    exact hne (Option.some.inj (hw.symm.trans hlock))
  simp only [Store.unlock, Function.update_of_ne hid]
  exact hw

theorem frame_unlock {opId : String} (hlock : st.locks opId = some who) :
    Frame who st (st.unlock opId) :=
  .of_operations (fun _ _ ho => ho) (unlock_locks hlock)

end Frame

section Exec

variable {who : ℕ} {input : Input} {st : Store}

/-- What a request on orders and operations does to the operations: nothing, or an
update of one row that leaves its totals and its place alone. -/
theorem exec_operations (who : ℕ) (now : Int) (db : Database) (ph : Execution.Phase) :
    (Execution.exec who now db ph).1.productionCounts = db.productionCounts ∧
      ((Execution.exec who now db ph).1.woOperations = db.woOperations ∨
        ∃ opId o o', updates? ph = some opId ∧ db.woOperations.lookup opId = some o ∧
          o'.id = o.id ∧ o'.workCenterId = o.workCenterId ∧ o'.qtyGood = o.qtyGood ∧
          o'.qtyScrap = o.qtyScrap ∧
          (Execution.exec who now db ph).1.woOperations = db.woOperations.put o') := by
  cases ph with
  | writeOrder id target current started =>
      simp only [Execution.exec, setWorkOrderStatus]
      cases db.workOrders.lookup id with
      | none => exact ⟨rfl, Or.inl rfl⟩
      | some r => exact ⟨rfl, Or.inl rfl⟩
  | writeOperation opId workOrderId action status =>
      cases ho : db.woOperations.lookup opId with
      | none =>
          cases action <;> simp only [Execution.exec, startOperation, completeOperation, ho]
          · exact ⟨rfl, Or.inl rfl⟩
          · exact ⟨rfl, Or.inl rfl⟩
      | some o =>
          cases action <;> simp only [Execution.exec, startOperation, completeOperation, ho]
          · exact ⟨trivial, Or.inr ⟨opId, o, o.started now, rfl, ho, rfl, rfl, rfl, rfl, rfl⟩⟩
          · exact ⟨trivial, Or.inr ⟨opId, o, o.completed now, rfl, ho, rfl, rfl, rfl, rfl, rfl⟩⟩
  | readOrder id target started =>
      rw [exec_read rfl]
      exact ⟨rfl, Or.inl rfl⟩
  | readOperation opId action =>
      rw [exec_read rfl]
      exact ⟨rfl, Or.inl rfl⟩
  | readParent workOrderId updated =>
      rw [exec_read rfl]
      exact ⟨rfl, Or.inl rfl⟩
  | done reply => exact ⟨rfl, Or.inl rfl⟩

/-- What a statement must leave behind: the balance, what its own session knows
next, and the other sessions' rows. -/
structure Sound (who : ℕ) (st : Store) (res : Store × Phase) : Prop where
  balanced : Balanced res.1.db
  own : Assertion res.1 who res.2
  frame : Frame who st res.1

theorem sound_same (h : Balanced st.db) {ph : Phase} (hph : Assertion st who ph) :
    Sound who st (st, ph) :=
  ⟨h, hph, Frame.refl who st⟩

theorem sound_cascade (h : Balanced st.db) {db : Database} (hcascade : Cascaded st.db db) :
    Sound who st ({ st with db }, .ended (.ok none)) := by
  refine ⟨h.cascade hcascade, trivial, ?_⟩
  obtain ⟨-, hops, -⟩ := hcascade
  exact .of_operations (fun _ _ ho => hops.symm ▸ ho) fun _ _ hw _ => hw

theorem sound_statement (h : Balanced st.db) (s : Statement) :
    Sound who st (run who input st (.statement s)) := by
  simp only [run]
  split
  · exact sound_same h trivial
  · rename_i db hrun
    cases s with
    | signal source sig =>
        obtain ⟨hops, -⟩ := storeSignal_unowned hrun
        exact ⟨h.signal hrun, trivial,
          .of_operations (fun _ _ ho => hops.symm ▸ ho) fun _ _ hw _ => hw⟩
    | deleteWorkCenter wcId => exact sound_cascade h (deleteWorkCenter_cascaded hrun)
    | deleteArea areaId => exact sound_cascade h (deleteArea_cascaded hrun)
    | deleteSite siteId => exact sound_cascade h (deleteSite_cascaded hrun)
    | createOrder c ids order =>
        simp only [Statement.run] at hrun
        cases hcreate : createWorkOrder c st.db input.now ids order with
        | error e =>
            rw [hcreate] at hrun
            cases hrun
        | ok res =>
            rw [hcreate] at hrun
            obtain rfl : res.1 = db := Except.ok.inj hrun
            obtain ⟨-, -, -, -, -, -, -, -, hkept, -⟩ := createWorkOrder_ok hcreate
            refine ⟨h.create hcreate, trivial, .of_operations ?_ fun _ _ hw _ => hw⟩
            intro opId o ho
            obtain ⟨hmem, rfl⟩ := Table.lookup_eq_some.mp ho
            exact Table.lookup_of_mem (hkept o hmem)

theorem held_by_self {opId : String} (hfree : st.waits who opId = false) (w : ℕ)
    (hw : st.locks opId = some w) : w = who := by
  simpa [Store.waits, hw] using hfree

theorem sound_lifecycle (h : Balanced st.db) (ph : Execution.Phase) :
    Sound who st (run who input st (.lifecycle ph)) := by
  simp only [run]
  split
  · exact sound_same h trivial
  · rename_i hfree
    obtain ⟨hcounts, hops | ⟨opId, o, o', hupd, ho, hid, hwc, hgood, hscrap, hops⟩⟩ :=
      exec_operations who input.now st.db ph
    · refine ⟨?_, trivial, .of_operations (fun _ _ ho => ?_) fun _ _ hw _ => hw⟩
      · exact h.of_counts hops fun _ => by rw [hcounts]
      · rw [← ho, ← hops]
    · have hheld : st.waits who opId = false := by simpa [hupd] using hfree
      exact ⟨h.put ho hid hwc hgood hscrap hops hcounts, trivial,
        .put ho hid hwc hops (held_by_self hheld) fun _ _ hw _ => hw⟩

theorem sound_insertRow (h : Balanced st.db) {opId wcId : String} {count : CountInput}
    (hph : Assertion st who (.insertRow opId wcId count)) :
    Sound who st (run who input st (.insertRow opId wcId count)) := by
  obtain ⟨hcheck, hplaced⟩ := hph
  simp only [run]
  split
  · exact sound_same h trivial
  · exact sound_same h ⟨⟨rfl, count.check_ok hcheck⟩, hplaced⟩

/-- The update of the totals takes the operation's row and reads it. -/
theorem sound_updateTotals (h : Balanced st.db) {row : ProductionCountRow} {opId : String}
    (hph : Assertion st who (.updateTotals row opId)) :
    Sound who st (run who input st (.updateTotals row opId)) := by
  obtain ⟨hrow, o, ho, hwc⟩ := hph
  by_cases hwaits : st.waits who opId = true
  · simp only [run, if_pos hwaits]
    exact sound_same h ⟨hrow, o, ho, hwc⟩
  · have hheld := held_by_self (Bool.not_eq_true _ ▸ hwaits)
    simp only [run, if_neg hwaits, ho]
    split
    · exact sound_same h trivial
    · rename_i updated hadd
      refine ⟨h, ⟨hrow, Function.update_self .., o, ho, hwc, hadd⟩, ?_⟩
      refine .of_operations (fun _ _ ho => ho) ?_
      intro id w hw hne
      have hid : id ≠ opId := by
        rintro rfl
        exact hne (hheld w hw)
      simp only [Store.lock, Function.update_of_ne hid]
      exact hw

theorem sound_commit (h : Balanced st.db) {row : ProductionCountRow} {opId : String}
    {updated : WoOperationRow} (hph : Assertion st who (.commit row opId updated)) :
    Sound who st (run who input st (.commit row opId updated)) := by
  obtain ⟨hrow, hlock, o, ho, hwc, hadd⟩ := hph
  obtain ⟨hkept, -⟩ := addCount_ok hadd
  simp only [run]
  split
  · exact ⟨h, trivial, frame_unlock hlock⟩
  · rename_i counts hins
    refine ⟨h.commit hrow ho hwc hadd hins, trivial, ?_⟩
    refine .put ho (by rw [hkept]) (by rw [hkept]) rfl ?_ (unlock_locks hlock)
    intro w hw
    exact Option.some.inj (hw.symm.trans hlock)

theorem sound_run (h : Balanced st.db) {ph : Phase} (hph : Assertion st who ph) :
    Sound who st (run who input st ph) := by
  cases ph with
  | readOperation opId count =>
      simp only [run]
      split
      · exact sound_same h trivial
      · rename_i op hop
        split
        · exact sound_same h trivial
        · rename_i wcId hwc
          exact sound_same h ⟨hph, op, getOperation_ok hop, hwc⟩
  | insertRow opId wcId count => exact sound_insertRow h hph
  | updateTotals row opId => exact sound_updateTotals h hph
  | commit row opId updated => exact sound_commit h hph
  | lifecycle ph => exact sound_lifecycle h ph
  | statement s => exact sound_statement h s
  | ended reply => exact sound_same h trivial

theorem sound_rollback (h : Balanced st.db) {ph : Phase} (hph : Assertion st who ph) :
    Sound who st (rollback st ph) := by
  cases ph with
  | commit row opId updated => exact ⟨h, trivial, frame_unlock hph.2.1⟩
  | readOperation opId count => exact sound_same h trivial
  | insertRow opId wcId count => exact sound_same h trivial
  | updateTotals row opId => exact sound_same h trivial
  | lifecycle ph => exact sound_same h trivial
  | statement s => exact sound_same h trivial
  | ended reply => exact sound_same h trivial

/-- Every statement, and every lost connection, keeps the balance. -/
theorem sound_exec (h : Balanced st.db) {ph : Phase} (hph : Assertion st who ph) :
    Sound who st (exec who input st ph) := by
  unfold exec
  split
  · exact sound_rollback h hph
  · exact sound_run h hph

end Exec

/-- The balance, and what every open session knows. -/
def Settled : State → Prop := Sessions.Inv (fun st => Balanced st.db) Assertion

theorem settled_run {s : State} (h : Settled s) (run : List (Move Request Input)) :
    Settled (run.foldl step s) := by
  refine Sessions.Inv.run ?_ ?_ ?_ h run
  · intro st i r _
    exact assertion_phase st i r
  · intro who input st ph hst hph
    have hsound : Sound who st (exec who input st ph) := sound_exec hst hph
    exact ⟨hsound.balanced, hsound.own⟩
  · intro who input st ph i other hne hst hph hother
    exact hother.stable hne (sound_exec hst hph).frame

/-- A plant before its first order: any master data, no operations, an empty ledger. -/
def unbooked (db : Database) : Database := { db with woOperations := ∅, productionCounts := ∅ }

theorem balanced_unbooked (db : Database) : Balanced (unbooked db) :=
  ⟨fun _ ho => absurd ho (Table.notMem_empty _), fun _ hr => absurd hr (Table.notMem_empty _)⟩

/-- The committed database after a run of the plant. -/
def ledgerAfter (db : Database) (run : List (Move Request Input)) : Database :=
  (run.foldl step ⟨⟨unbooked db, fun _ => none⟩, []⟩).store.db

/-- After every run, with any interleaving of statements and any connections lost,
the totals of each operation are the sums of its ledger rows, and each of these
rows that has scrap has a scrap reason. -/
theorem counts_equal_ledger (db : Database) (run : List (Move Request Input)) :
    (∀ o ∈ (ledgerAfter db run).woOperations,
      o.qtyGood.toInt = booked (ledgerAfter db run) o.id ProductionCountRow.good ∧
      o.qtyScrap.toInt = booked (ledgerAfter db run) o.id ProductionCountRow.scrap) ∧
    ∀ r ∈ (ledgerAfter db run).productionCounts, r.woOperationId.isSome → 0 < r.scrap →
      r.scrapReasonId.isSome := by
  have hbalanced : Balanced (ledgerAfter db run) :=
    (settled_run (Sessions.inv_nil (balanced_unbooked db)) run).1
  refine ⟨hbalanced.totals, ?_⟩
  intro r hr hop
  obtain ⟨opId, hop⟩ := Option.isSome_iff_exists.mp hop
  exact (hbalanced.rows r hr opId hop).1.2

end ElectronixMes.Execution.Ledger
