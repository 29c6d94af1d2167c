import ElectronixMes.Db.RepoQms
import ElectronixMes.Transition.Sessions

/-!
# Quality and material calls, statement by statement

Recording a result and a disposition are transactions of several statements; placing and
releasing a hold are one statement; issuing material is two checks and an insert with nothing
around them. Calls of all kinds are interleaved under READ COMMITTED, and a connection may be
lost at any statement.

## Implementation notes

What a transaction has written is local to its session until the commit, and each of its
statements sees the committed tables with its own writes. The rows that a disposition updates
are locked: another update of them waits. `now()` is the start of the transaction. Where a key
was taken by another commit in the meantime, the commit fails. The part of a lot is read with
the insert of the nonconformance: no statement here changes a lot.
-/

namespace ElectronixMes.Quality.Interleaving

open Db ElectronixMes.Core Relational Serde Transition

/-- The committed tables, and the sessions that hold rows of nonconformances and of holds. -/
structure Store where
  db : Database
  ncrs : Locks String
  holds : Locks String

/-- The clock, a drawn id, and whether the connection is lost instead. -/
structure Input where
  now : Int
  id : String
  lost : Bool := false

/-- What a disposition is called with. -/
structure Ruling where
  id : String
  disposition : Disposition
  reason : Option String
  actor : String

structure Issue where
  lotId : Option String
  serialId : Option String
  qty : Decimal
  woOperationId : Option String
  userId : String

inductive Request where
  | recordResult (input : ResultInput) (inspectedBy : String)
  | dispositionNcr (d : Ruling)
  | placeHold (entityType entityId : String) (reason : Option String) (createdBy : String)
  | releaseHold (holdId releasedBy : String)
  | issueMaterial (i : Issue)

inductive Reply where
  | recorded (result : InspectionResultRow) (ncr : Option NcrRow)
  | dispositioned (ncr : NcrRow)
  | placed (id : String)
  | released
  | issued (id : String)

/-- What an open recording has written. -/
structure Recording where
  input : ResultInput
  inspectedBy : String
  now : Int
  result : InspectionResultRow
  ncr : Option NcrRow
  holds : List HoldRow

/-- The nonconformances with that of a recording, whose number is unique too. -/
def Recording.ncrsOnto (w : Recording) (ncrs : Table NcrRow) : Option (Table NcrRow) :=
  match w.ncr with
  | none => some ncrs
  | some n => if ncrs.rows.any fun o => o.ncrNo = n.ncrNo then none else ncrs.insert? n

/-- The tables with the writes of a recording. -/
def Recording.onto (w : Recording) (db : Database) : Option Database := do
  let inspectionResults ← db.inspectionResults.insert? w.result
  let ncrs ← w.ncrsOnto db.ncrs
  let holds ← db.holds.insertAll? w.holds
  return { db with inspectionResults, ncrs, holds }

/-- The next statement of a call, with the variables it has read. -/
inductive Phase where
  | readLimits (input : ResultInput) (inspectedBy : String)
  | insertResult (input : ResultInput) (inspectedBy : String) (outcome : InspectionOutcome)
  | insertNcr (w : Recording)
  | insertHold (w : Recording) (m : Material) (rest : List Material)
  | commitResult (w : Recording)
  | beginDisposition (d : Ruling)
  | updateNcr (d : Ruling) (now : Int)
  | updateHolds (d : Ruling) (now : Int) (row : NcrRow)
  | commitDisposition (d : Ruling) (now : Int) (row : NcrRow) (released : List String)
  | placeHold (entityType entityId : String) (reason : Option String) (createdBy : String)
  | releaseHold (holdId releasedBy : String)
  | checkLot (i : Issue)
  | checkSerial (i : Issue)
  | insertIssue (i : Issue)
  | ended (reply : Except RepoError Reply)

/-- The holds still to be placed, then the commit. -/
def Recording.next (w : Recording) : List Material → Phase
  | [] => .commitResult w
  | m :: rest => .insertHold w m rest

/-- What follows the check of the lot. -/
def Issue.afterLot (i : Issue) : Phase :=
  match i.serialId with
  | none => .insertIssue i
  | some _ => .checkSerial i

def Issue.phase (i : Issue) : Phase :=
  match i.lotId with
  | none => i.afterLot
  | some _ => .checkLot i

def Request.phase : Request → Phase
  | recordResult input inspectedBy => .readLimits input inspectedBy
  | dispositionNcr d => .beginDisposition d
  | placeHold entityType entityId reason createdBy =>
      .placeHold entityType entityId reason createdBy
  | releaseHold holdId releasedBy => .releaseHold holdId releasedBy
  | issueMaterial i => i.phase

def failed (st : Store) (e : RepoError) : Store × Phase := (st, .ended (.error e))

/-- The active holds of a nonconformance. -/
def linkedHolds (db : Database) (ncrId : String) : List String :=
  (db.holds.rows.filter fun h => h.ncrId = some ncrId ∧ h.status = "active").map HoldRow.id

/-- The end of a disposition: the nonconformance and its holds are written. -/
def commitDisposition (st : Store) (d : Ruling) (now : Int) (row : NcrRow)
    (released : List String) : Store where
  db :=
    { st.db with
      ncrs := st.db.ncrs.put row
      holds := st.db.holds.modify
        (fun h => if h.id ∈ released then h.released now d.actor else h)
        (fun h => by
          show HoldRow.id _ = h.id
          split <;> rfl) }
  ncrs := st.ncrs.release d.id
  holds := st.holds.releaseAll released

/-- One statement of a session whose connection holds. -/
def run (who : ℕ) (input : Input) (st : Store) : Phase → Store × Phase
  | .readLimits r inspectedBy =>
      match st.db.characteristics.lookup r.characteristicId with
      | none => failed st .notFound
      | some c =>
          (st, .insertResult r inspectedBy (evaluate r.measuredValue c.lowerLimit c.upperLimit))
  | .insertResult r inspectedBy outcome =>
      match Db.insertResult st.db input.now input.id r outcome inspectedBy with
      | .error e => failed st (mapSqlx e)
      | .ok (_, result) =>
          let w : Recording := ⟨r, inspectedBy, input.now, result, none, []⟩
          if outcome = .fail then (st, .insertNcr w) else (st, .commitResult w)
  | .insertNcr w =>
      match w.onto st.db with
      | none => failed st (mapSqlx (.uniqueViolation "inspection_results_pkey"))
      | some view =>
          match Db.insertNcr view w.now input.id w.result with
          | .error e => failed st (mapSqlx e)
          | .ok (_, ncr) =>
              (st, Recording.next { w with ncr := some ncr }
                (Material.named w.input.lotId w.input.serialId))
  | .insertHold w m rest =>
      match w.onto st.db with
      | none => failed st (mapSqlx (.uniqueViolation "ncrs_pkey"))
      | some view =>
          let h := newHold w.now input.id m.entityType m.entityId (some "NCR auto-hold")
            w.inspectedBy (w.ncr.map NcrRow.id)
          match Db.insertHold view h with
          | .error e => failed st (mapSqlx e)
          | .ok _ => (st, Recording.next { w with holds := w.holds ++ [h] } rest)
  | .commitResult w =>
      match w.onto st.db with
      | none => failed st (mapSqlx (.uniqueViolation "holds_pkey"))
      | some db => ({ st with db }, .ended (.ok (.recorded w.result w.ncr)))
  | .beginDisposition d => (st, .updateNcr d input.now)
  | .updateNcr d now =>
      if st.ncrs.waits who d.id then (st, .updateNcr d now)
      else
        match st.db.ncrs.lookup d.id with
        | none => failed st .notFound
        | some n =>
            if n.status = "open" then
              if d.actor ∈ st.db.users then
                let row := n.dispositioned now d.disposition d.reason d.actor
                ({ st with ncrs := st.ncrs.take who d.id },
                  if d.disposition.releasesHold then .updateHolds d now row
                  else .commitDisposition d now row [])
              else failed st (mapSqlx (.foreignKeyViolation "ncrs" "ncrs_dispositioned_by_fkey"))
            else failed st .notFound
  | .updateHolds d now row =>
      let released := linkedHolds st.db d.id
      if released.any (st.holds.waits who) then (st, .updateHolds d now row)
      else
        ({ st with holds := st.holds.takeAll who released },
          .commitDisposition d now row released)
  | .commitDisposition d now row released =>
      (commitDisposition st d now row released, .ended (.ok (.dispositioned row)))
  | .placeHold entityType entityId reason createdBy =>
      match Db.placeHold st.db input.now input.id entityType entityId reason createdBy with
      | .error e => failed st e
      | .ok (db, id) => ({ st with db }, .ended (.ok (.placed id)))
  | .releaseHold holdId releasedBy =>
      if st.holds.waits who holdId then (st, .releaseHold holdId releasedBy)
      else
        match Db.releaseHold st.db input.now holdId releasedBy with
        | .error e => failed st e
        | .ok db => ({ st with db }, .ended (.ok .released))
  | .checkLot i =>
      if i.lotId.any fun l => isHeld st.db (.lot l) then failed st (.conflict "lot is on hold")
      else (st, i.afterLot)
  | .checkSerial i =>
      if i.serialId.any fun s => isHeld st.db (.serial s) then
        failed st (.conflict "serial is on hold")
      else (st, .insertIssue i)
  | .insertIssue i =>
      match Db.insertIssue st.db input.now input.id i.lotId i.serialId i.qty i.woOperationId
          i.userId with
      | .error e => failed st (mapSqlx e)
      | .ok db => ({ st with db }, .ended (.ok (.issued input.id)))
  | .ended reply => (st, .ended reply)

/-- What a client sees of a lost connection. -/
def connectionLost : RepoError := .db (.other "connection lost")

/-- Give up the rows a session holds. -/
def Store.unlock (st : Store) : Phase → Store
  | .updateHolds d _ _ => { st with ncrs := st.ncrs.release d.id }
  | .commitDisposition d _ _ released =>
      { st with ncrs := st.ncrs.release d.id, holds := st.holds.releaseAll released }
  | _ => st

/-- A lost connection rolls an open transaction back and releases its rows. -/
def rollback (st : Store) : Phase → Store × Phase
  | .ended reply => (st, .ended reply)
  | ph => failed (st.unlock ph) connectionLost

/-- A call and where it stands. -/
structure Session where
  request : Request
  phase : Phase

def exec (who : ℕ) (input : Input) (st : Store) (c : Session) : Store × Session :=
  let res := if input.lost then rollback st c.phase else run who input st c.phase
  (res.1, { c with phase := res.2 })

abbrev State := Sessions Store Session

abbrev Schedule := List (Move Request Input)

def step : State → Move Request Input → State :=
  Sessions.step (fun r => ⟨r, r.phase⟩) exec

/-- A database without open sessions. -/
def opened (db : Database) : State := ⟨⟨db, .free, .free⟩, []⟩

/-- The state after the first `k` moves. -/
def stateAt (db : Database) (moves : Schedule) (k : ℕ) : State :=
  (moves.take k).foldl step (opened db)

section Writes

variable {w : Recording} {db view view' : Database}

/-- What the writes of a recording add to the tables. -/
theorem Recording.onto_eq_some :
    w.onto db = some view ↔ ∃ inspectionResults ncrs holds,
      db.inspectionResults.insert? w.result = some inspectionResults ∧
      w.ncrsOnto db.ncrs = some ncrs ∧ db.holds.insertAll? w.holds = some holds ∧
      view = { db with inspectionResults, ncrs, holds } := by
  simp only [Recording.onto, Option.bind_eq_bind, Option.bind_eq_some_iff]
  constructor
  · rintro ⟨results, hresults, ncrs, hncrs, holds, hholds, hview⟩
    cases hview
    exact ⟨results, ncrs, holds, hresults, hncrs, hholds, rfl⟩
  · rintro ⟨results, ncrs, holds, hresults, hncrs, hholds, rfl⟩
    exact ⟨results, hresults, ncrs, hncrs, holds, hholds, rfl⟩

theorem Recording.ncrsOnto_cases {ncrs : Table NcrRow} (h : w.ncrsOnto db.ncrs = some ncrs) :
    w.ncr = none ∧ ncrs = db.ncrs ∨ ∃ n, w.ncr = some n ∧ db.ncrs.insert? n = some ncrs := by
  unfold Recording.ncrsOnto at h
  split at h
  · rename_i hnone
    cases h
    exact Or.inl ⟨hnone, rfl⟩
  · rename_i n hsome
    split at h
    · cases h
    · exact Or.inr ⟨n, hsome, h⟩

theorem Recording.onto_insertNcr (hncr : w.ncr = none) {now : Int} {id : String} {n : NcrRow}
    (h : w.onto db = some view) (hinsert : Db.insertNcr view now id w.result = .ok (view', n)) :
    Recording.onto { w with ncr := some n } db = some view' := by
  obtain ⟨results, ncrs, holds, hresults, hncrs, hholds, rfl⟩ := Recording.onto_eq_some.mp h
  obtain ⟨ncrs', hins, hview, -⟩ := insertNcr_ok hinsert
  have hno : ¬ (ncrs.rows.any fun o => o.ncrNo = n.ncrNo) := insertNcr_no hinsert
  obtain rfl : ncrs = db.ncrs := by
    rw [Recording.ncrsOnto, hncr] at hncrs
    exact (Option.some.inj hncrs).symm
  refine Recording.onto_eq_some.mpr ⟨results, ncrs', holds, hresults, ?_, hholds, hview⟩
  exact (if_neg hno).trans hins

theorem Recording.onto_insertHold {k : HoldRow} (h : w.onto db = some view)
    (hinsert : Db.insertHold view k = .ok view') :
    Recording.onto { w with holds := w.holds ++ [k] } db = some view' := by
  obtain ⟨results, ncrs, holds, hresults, hncrs, hholds, rfl⟩ := Recording.onto_eq_some.mp h
  obtain ⟨holds', hins, rfl⟩ := insertHold_ok hinsert
  refine Recording.onto_eq_some.mpr ⟨results, ncrs, holds', hresults, hncrs, ?_, rfl⟩
  exact (Table.insertAll?_concat hholds k).trans hins

end Writes

section Alone

/-- The first statements of a session that runs alone and keeps its connection, each with
its input. -/
def alone (st : Store) (ph : Phase) (inputs : ℕ → Input) : ℕ → Store × Phase
  | 0 => (st, ph)
  | n + 1 =>
      alone (run 0 (inputs 0) st ph).1 (run 0 (inputs 0) st ph).2 (fun k => inputs (k + 1)) n

theorem alone_ended (st : Store) (reply : Except RepoError Reply) (inputs : ℕ → Input) (n : ℕ) :
    alone st (.ended reply) inputs n = (st, .ended reply) := by
  induction n generalizing inputs with
  | zero => rfl
  | succ n ih => exact ih _

/-- Alone, the holds of a nonconformance are placed as the repository places them. -/
theorem alone_next {db : Database} {ncr : NcrRow} {ids : ℕ → String} {inputs : ℕ → Input}
    (hids : ∀ k, (inputs k).id = ids k) {materials : List Material} {n : ℕ}
    (hn : materials.length < n) {w : Recording} (hncr : w.ncr = some ncr) {view : Database}
    (hview : w.onto db = some view) :
    alone ⟨db, .free, .free⟩ (w.next materials) inputs n =
      match autoHolds w.now w.inspectedBy ncr.id ids view materials with
      | .error e => (⟨db, .free, .free⟩, .ended (.error (mapSqlx e)))
      | .ok db => (⟨db, .free, .free⟩, .ended (.ok (.recorded w.result w.ncr))) := by
  induction materials generalizing n w view ids inputs with
  | nil =>
      obtain ⟨n, rfl⟩ := Nat.exists_eq_succ_of_ne_zero (Nat.ne_zero_of_lt hn)
      rw [Recording.next, alone, run, hview, alone_ended, autoHolds]
  | cons m rest ih =>
      obtain ⟨n, rfl⟩ := Nat.exists_eq_succ_of_ne_zero (Nat.ne_zero_of_lt hn)
      have hlink : w.ncr.map NcrRow.id = some ncr.id := congrArg (Option.map NcrRow.id) hncr
      rw [Recording.next, alone, run, hview, autoHolds, hids 0, hlink]
      dsimp only
      cases hinsert : insertHold view (newHold w.now (ids 0) m.entityType m.entityId
          (some "NCR auto-hold") w.inspectedBy (some ncr.id)) with
      | error e =>
          dsimp only [failed]
          rw [alone_ended]
          rfl
      | ok view' =>
          have hrest : rest.length < n := Nat.lt_of_succ_lt_succ hn
          dsimp only
          rw [ih (w := { w with holds := w.holds ++ [_] }) (fun k => hids (k + 1)) hrest hncr
            (Recording.onto_insertHold hview hinsert)]
          rfl

/-- Alone, a recording is the function of the repository. -/
theorem alone_recordResult (db : Database) (now : Int) (ids : ℕ → String) (input : ResultInput)
    (inspectedBy : String) :
    let res := Db.recordResult db now ids input inspectedBy
    alone ⟨db, .free, .free⟩ (Request.recordResult input inspectedBy).phase
        (fun k => ⟨now, ids (k - 1), false⟩) 6
      = (⟨(res.map Prod.fst).toOption.getD db, .free, .free⟩,
          .ended (res.map fun r => .recorded r.2.1 r.2.2)) := by
  simp only [Request.phase, Db.recordResult]
  rw [alone, run]
  cases db.characteristics.lookup input.characteristicId with
  | none =>
      dsimp only [failed]
      rw [alone_ended]
      rfl
  | some c =>
      dsimp only
      generalize evaluate input.measuredValue c.lowerLimit c.upperLimit = outcome
      rw [alone, run]
      dsimp only [Nat.add_sub_cancel]
      cases hresult : insertResult db now (ids 0) input outcome inspectedBy with
      | error e =>
          dsimp only [failed]
          rw [alone_ended]
          rfl
      | ok res =>
          obtain ⟨db₁, result⟩ := res
          obtain ⟨results, hresults, hdb, hlot, hserial⟩ := insertResult_ok hresult
          dsimp only at hdb hresults
          subst hdb
          have honto : Recording.onto ⟨input, inspectedBy, now, result, none, []⟩ db
              = some { db with inspectionResults := results } :=
            Recording.onto_eq_some.mpr ⟨results, _, _, hresults, rfl, rfl, rfl⟩
          dsimp only
          by_cases hfail : outcome = .fail
          · rw [if_pos hfail, if_pos hfail, alone, run, honto]
            dsimp only
            cases hncr : insertNcr { db with inspectionResults := results } now (ids 1) result with
            | error e =>
                dsimp only [failed]
                rw [alone_ended]
                rfl
            | ok res =>
                obtain ⟨db₂, ncr⟩ := res
                have honto' := Recording.onto_insertNcr rfl honto hncr
                have hlength : (Material.named input.lotId input.serialId).length < 3 := by
                  cases input.lotId <;> cases input.serialId <;> simp [Material.named]
                have hids (k : ℕ) : (⟨now, ids (k + 1 + 1 + 1 - 1), false⟩ : Input).id
                    = ids (k + 2) := rfl
                dsimp only
                rw [alone_next hids hlength rfl honto']
                dsimp only
                cases autoHolds now inspectedBy ncr.id (fun k => ids (k + 2)) db₂
                    (Material.named input.lotId input.serialId) <;> rfl
          · rw [if_neg hfail, if_neg hfail, alone, run, honto]
            dsimp only
            rw [alone_ended]
            rfl

theorem mem_linkedHolds {db : Database} {h : HoldRow} (hmem : h ∈ db.holds) (ncrId : String) :
    h.id ∈ linkedHolds db ncrId ↔ h.ncrId = some ncrId ∧ h.status = "active" := by
  rw [linkedHolds, List.mem_map]
  constructor
  · rintro ⟨k, hk, hid⟩
    obtain ⟨hk, hlinked⟩ := List.mem_filter.mp hk
    obtain rfl : k = h := Table.eq_of_key_eq hk hmem hid
    exact of_decide_eq_true hlinked
  · intro hlinked
    exact ⟨h, List.mem_filter.mpr ⟨hmem, decide_eq_true hlinked⟩, rfl⟩

/-- What a disposition writes to the holds, where its list names the active ones of its
nonconformance. -/
theorem rows_commitDisposition {st : Store} {d : Ruling} {released : List String}
    (hexact : ∀ h ∈ st.db.holds, h.id ∈ released ↔
      d.disposition.releasesHold = true ∧ h.ncrId = some d.id ∧ h.status = "active")
    (now : Int) (row : NcrRow) :
    (commitDisposition st d now row released).db.holds.rows =
      st.db.holds.rows.map fun h =>
        if d.disposition.releasesHold = true ∧ h.ncrId = some d.id ∧ h.status = "active" then
          h.released now d.actor
        else h := by
  apply List.map_congr_left
  intro h hh
  simp only [hexact h hh]

theorem mem_commitDisposition {st : Store} {d : Ruling} {now : Int} {row : NcrRow}
    {released : List String} {h : HoldRow} :
    h ∈ (commitDisposition st d now row released).db.holds ↔
      ∃ k ∈ st.db.holds, (if k.id ∈ released then k.released now d.actor else k) = h := by
  unfold commitDisposition
  rw [Table.mem_modify]

theorem commitDisposition_alone {db : Database} {d : Ruling} {released : List String}
    {locks : Locks String}
    (hexact : ∀ h ∈ db.holds, h.id ∈ released ↔
      d.disposition.releasesHold = true ∧ h.ncrId = some d.id ∧ h.status = "active")
    (hlocks : locks.releaseAll released = .free) (now : Int) (row : NcrRow) :
    commitDisposition ⟨db, Locks.free.take 0 d.id, locks⟩ d now row released =
      ⟨if d.disposition.releasesHold then
          releaseNcrHolds { db with ncrs := db.ncrs.put row } now d.id d.actor
        else { db with ncrs := db.ncrs.put row }, .free, .free⟩ := by
  have hholds : (commitDisposition ⟨db, Locks.free.take 0 d.id, locks⟩ d now row released).db.holds
      = if d.disposition.releasesHold then (releaseNcrHolds db now d.id d.actor).holds
        else db.holds := by
    apply Table.ext
    rw [rows_commitDisposition hexact]
    cases d.disposition.releasesHold <;> simp [releaseNcrHolds, Table.modify]
  unfold commitDisposition at hholds ⊢
  dsimp only at hholds ⊢
  rw [hholds, Locks.release_take, hlocks]
  cases d.disposition.releasesHold <;> rfl

/-- Alone, a disposition is the function of the repository. -/
theorem alone_dispositionNcr (db : Database) (now : Int) (d : Ruling) :
    let res := Db.dispositionNcr db now d.id d.disposition d.reason d.actor
    alone ⟨db, .free, .free⟩ (Request.dispositionNcr d).phase (fun _ => ⟨now, "", false⟩) 4
      = (⟨(res.map Prod.fst).toOption.getD db, .free, .free⟩,
          .ended (res.map fun r => .dispositioned r.2)) := by
  have hfree : Locks.free.waits 0 d.id = false := rfl
  simp only [Request.phase, Db.dispositionNcr]
  rw [alone, run, alone, run, hfree]
  simp only [Bool.false_eq_true, if_false]
  cases hn : db.ncrs.lookup d.id with
  | none =>
      dsimp only [failed]
      rw [alone_ended]
      rfl
  | some n =>
      dsimp only
      by_cases hopen : n.status = "open"
      · rw [if_pos hopen, if_pos hopen]
        by_cases hactor : d.actor ∈ db.users
        · rw [if_pos hactor, if_pos hactor]
          dsimp only
          cases hreleases : d.disposition.releasesHold with
          | true =>
              have hwaits : (linkedHolds db d.id).any (Locks.free.waits 0) = false := by
                simp [Locks.waits, Locks.free]
              simp only [if_true]
              rw [alone, run, hwaits]
              simp only [Bool.false_eq_true, if_false]
              rw [alone, run, alone, commitDisposition_alone _ (Locks.releaseAll_takeAll _ _),
                hreleases]
              · rfl
              · intro h hh
                rw [mem_linkedHolds hh d.id, hreleases]
                exact (and_iff_right rfl).symm
          | false =>
              simp only [Bool.false_eq_true, if_false]
              rw [alone, run, alone_ended, commitDisposition_alone _ (Locks.releaseAll_nil _),
                hreleases]
              · rfl
              · intro h hh
                rw [hreleases]
                simp
        · rw [if_neg hactor, if_neg hactor]
          dsimp only [failed]
          rw [alone_ended]
          rfl
      · rw [if_neg hopen, if_neg hopen]
        dsimp only [failed]
        rw [alone_ended]
        rfl

/-- Alone, an issue is the function of the repository. -/
theorem alone_issueMaterial (db : Database) (now : Int) (id : String) (i : Issue) :
    let res := Db.issueMaterial db now id i.lotId i.serialId i.qty i.woOperationId i.userId
    alone ⟨db, .free, .free⟩ (Request.issueMaterial i).phase (fun _ => ⟨now, id, false⟩) 3
      = (⟨(res.map Prod.fst).toOption.getD db, .free, .free⟩,
          .ended (res.map fun r => .issued r.2)) := by
  have hinsert (n : ℕ) :
      alone ⟨db, .free, .free⟩ (.insertIssue i) (fun _ => ⟨now, id, false⟩) (n + 1) =
        match Db.insertIssue db now id i.lotId i.serialId i.qty i.woOperationId i.userId with
        | .error e => (⟨db, .free, .free⟩, .ended (.error (mapSqlx e)))
        | .ok db => (⟨db, .free, .free⟩, .ended (.ok (.issued id))) := by
    rw [alone, run]
    dsimp only
    cases Db.insertIssue db now id i.lotId i.serialId i.qty i.woOperationId i.userId <;>
      exact alone_ended _ _ _ _
  have hserial (n : ℕ) :
      alone ⟨db, .free, .free⟩ i.afterLot (fun _ => ⟨now, id, false⟩) (n + 2) =
        if i.serialId.any fun s => isHeld db (.serial s) then
          (⟨db, .free, .free⟩, .ended (.error (.conflict "serial is on hold")))
        else alone ⟨db, .free, .free⟩ (.insertIssue i) (fun _ => ⟨now, id, false⟩) (n + 1) := by
    unfold Issue.afterLot
    cases hs : i.serialId with
    | none => simp [hinsert]
    | some s =>
        dsimp only
        rw [alone, run, hs]
        by_cases hheld : (some s).any fun s => isHeld db (.serial s)
        · rw [if_pos hheld, if_pos hheld]
          exact alone_ended _ _ _ _
        · rw [if_neg hheld, if_neg hheld]
  have hlot :
      alone ⟨db, .free, .free⟩ i.phase (fun _ => ⟨now, id, false⟩) 3 =
        if i.lotId.any fun l => isHeld db (.lot l) then
          (⟨db, .free, .free⟩, .ended (.error (.conflict "lot is on hold")))
        else alone ⟨db, .free, .free⟩ i.afterLot (fun _ => ⟨now, id, false⟩) 2 := by
    unfold Issue.phase
    cases hl : i.lotId with
    | none => simp [hserial, hinsert]
    | some l =>
        dsimp only
        rw [alone, run, hl]
        by_cases hheld : (some l).any fun l => isHeld db (.lot l)
        · rw [if_pos hheld, if_pos hheld]
          exact alone_ended _ _ _ _
        · rw [if_neg hheld, if_neg hheld]
  simp only [Request.phase, Db.issueMaterial]
  rw [hlot, hserial, hinsert]
  split
  · rfl
  · split
    · rfl
    · cases Db.insertIssue db now id i.lotId i.serialId i.qty i.woOperationId i.userId <;> rfl

end Alone

section Ran

/-- A hold that a recording has placed on its material. -/
structure LinkedHold (ncrId : Option String) (h : HoldRow) (m : Material) : Prop where
  linked : h.ncrId = ncrId
  isOn : h.IsOn m
  active : h.status = "active"

def Phase.isEnded : Phase → Bool
  | .ended _ => true
  | _ => false

/-- What one statement can do, by the phase it is taken in. -/
inductive Ran (who : ℕ) (st : Store) : Phase → Store × Phase → Prop
  | refused {ph : Phase} (e : RepoError) (runs : ph.isEnded = false) :
      Ran who st ph (st.unlock ph, .ended (.error e))
  | evaluated {r : ResultInput} {c : CharacteristicRow} (inspectedBy : String)
      (stored : st.db.characteristics.lookup r.characteristicId = some c) :
      Ran who st (.readLimits r inspectedBy)
        (st, .insertResult r inspectedBy (evaluate r.measuredValue c.lowerLimit c.upperLimit))
  | passed (r : ResultInput) (inspectedBy : String) (now : Int) (result : InspectionResultRow) :
      Ran who st (.insertResult r inspectedBy .pass)
        (st, .commitResult ⟨r, inspectedBy, now, result, none, []⟩)
  | failed (r : ResultInput) (inspectedBy : String) (now : Int) (result : InspectionResultRow) :
      Ran who st (.insertResult r inspectedBy .fail)
        (st, .insertNcr ⟨r, inspectedBy, now, result, none, []⟩)
  | raised {n : NcrRow} (w : Recording) (isOpen : n.status = "open") :
      Ran who st (.insertNcr w) (st, Recording.next { w with ncr := some n }
        (Material.named w.input.lotId w.input.serialId))
  | blocked {w : Recording} {m : Material} {h : HoldRow} (rest : List Material)
      (linked : LinkedHold (w.ncr.map NcrRow.id) h m) :
      Ran who st (.insertHold w m rest)
        (st, Recording.next { w with holds := w.holds ++ [h] } rest)
  | recorded {w : Recording} {db : Database} (written : w.onto st.db = some db) :
      Ran who st (.commitResult w) ({ st with db }, .ended (.ok (.recorded w.result w.ncr)))
  | began (d : Ruling) (now : Int) : Ran who st (.beginDisposition d) (st, .updateNcr d now)
  | waited (ph : Phase) : Ran who st ph (st, ph)
  | tookNcr {d : Ruling} {n : NcrRow} (now : Int) (grants : st.ncrs.waits who d.id = false)
      (stored : st.db.ncrs.lookup d.id = some n) (isOpen : n.status = "open") :
      Ran who st (.updateNcr d now)
        ({ st with ncrs := st.ncrs.take who d.id },
          if d.disposition.releasesHold then
            .updateHolds d now (n.dispositioned now d.disposition d.reason d.actor)
          else .commitDisposition d now (n.dispositioned now d.disposition d.reason d.actor) [])
  | tookHolds {d : Ruling} (now : Int) (row : NcrRow)
      (grants : ∀ id ∈ linkedHolds st.db d.id, st.holds.waits who id = false) :
      Ran who st (.updateHolds d now row)
        ({ st with holds := st.holds.takeAll who (linkedHolds st.db d.id) },
          .commitDisposition d now row (linkedHolds st.db d.id))
  | disposed (d : Ruling) (now : Int) (row : NcrRow) (released : List String) :
      Ran who st (.commitDisposition d now row released)
        (commitDisposition st d now row released, .ended (.ok (.dispositioned row)))
  | placed {entityType entityId createdBy : String} {reason : Option String} {h : HoldRow}
      {holds : Table HoldRow} (insert : st.db.holds.insert? h = some holds)
      (new : ∃ now id, h = newHold now id entityType entityId reason createdBy none) :
      Ran who st (.placeHold entityType entityId reason createdBy)
        ({ st with db := { st.db with holds } }, .ended (.ok (.placed h.id)))
  | released {holdId releasedBy : String} {h : HoldRow} (now : Int)
      (grants : st.holds.waits who holdId = false) (stored : st.db.holds.lookup holdId = some h)
      (active : h.status = "active") :
      Ran who st (.releaseHold holdId releasedBy)
        ({ st with db := { st.db with holds := st.db.holds.put (h.released now releasedBy) } },
          .ended (.ok .released))
  | checkedLot {i : Issue} (free : ∀ l ∈ i.lotId, isHeld st.db (.lot l) = false) :
      Ran who st (.checkLot i) (st, i.afterLot)
  | checkedSerial {i : Issue} (free : ∀ s ∈ i.serialId, isHeld st.db (.serial s) = false) :
      Ran who st (.checkSerial i) (st, .insertIssue i)
  | issued {i : Issue} {row : MaterialTxnRow} {materialTxns : Table MaterialTxnRow}
      (insert : st.db.materialTxns.insert? row = some materialTxns) (lot : row.lotId = i.lotId)
      (serial : row.serialId = i.serialId) :
      Ran who st (.insertIssue i)
        ({ st with db := { st.db with materialTxns } }, .ended (.ok (.issued row.id)))

theorem ran_recording (who : ℕ) (input : Input) (st : Store) (r : ResultInput)
    (inspectedBy : String) (outcome : InspectionOutcome) :
    Ran who st (.insertResult r inspectedBy outcome)
      (run who input st (.insertResult r inspectedBy outcome)) := by
  simp only [run]
  cases insertResult st.db input.now input.id r outcome inspectedBy with
  | error e => exact .refused _ rfl
  | ok res =>
      cases outcome with
      | pass => exact .passed r inspectedBy input.now res.2
      | fail => exact .failed r inspectedBy input.now res.2

theorem ran_raising (who : ℕ) (input : Input) (st : Store) (w : Recording) :
    Ran who st (.insertNcr w) (run who input st (.insertNcr w)) := by
  simp only [run]
  cases w.onto st.db with
  | none => exact .refused _ rfl
  | some view =>
      dsimp only
      cases hncr : insertNcr view w.now input.id w.result with
      | error e => exact .refused _ rfl
      | ok res =>
          obtain ⟨-, -, -, -, -, -, hopen⟩ := insertNcr_ok hncr
          exact .raised w hopen

theorem ran_taking (who : ℕ) (input : Input) (st : Store) (d : Ruling) (now : Int) :
    Ran who st (.updateNcr d now) (run who input st (.updateNcr d now)) := by
  simp only [run]
  cases hwaits : st.ncrs.waits who d.id with
  | true => exact .waited _
  | false =>
      simp only [Bool.false_eq_true, if_false]
      cases hn : st.db.ncrs.lookup d.id with
      | none => exact .refused _ rfl
      | some n =>
          dsimp only
          split
          · rename_i hopen
            split
            · exact .tookNcr now hwaits hn hopen
            · exact .refused _ rfl
          · exact .refused _ rfl

theorem ran_releasing (who : ℕ) (input : Input) (st : Store) (holdId releasedBy : String) :
    Ran who st (.releaseHold holdId releasedBy)
      (run who input st (.releaseHold holdId releasedBy)) := by
  simp only [run]
  cases hwaits : st.holds.waits who holdId with
  | true => exact .waited _
  | false =>
      simp only [Bool.false_eq_true, if_false]
      cases hrelease : releaseHold st.db input.now holdId releasedBy with
      | error e => exact .refused _ rfl
      | ok db =>
          obtain ⟨h, hh, hactive, rfl⟩ := releaseHold_ok hrelease
          exact .released input.now hwaits hh hactive

theorem ran_run (who : ℕ) (input : Input) (st : Store) (ph : Phase) :
    Ran who st ph (run who input st ph) := by
  cases ph with
  | readLimits r inspectedBy =>
      simp only [run]
      cases hc : st.db.characteristics.lookup r.characteristicId with
      | none => exact .refused _ rfl
      | some c => exact .evaluated inspectedBy hc
  | insertResult r inspectedBy outcome => exact ran_recording who input st r inspectedBy outcome
  | insertNcr w => exact ran_raising who input st w
  | insertHold w m rest =>
      simp only [run]
      cases w.onto st.db with
      | none => exact .refused _ rfl
      | some view =>
          dsimp only
          split
          · exact .refused _ rfl
          · exact .blocked rest ⟨rfl, ⟨rfl, rfl⟩, rfl⟩
  | commitResult w =>
      simp only [run]
      cases hw : w.onto st.db with
      | none => exact .refused _ rfl
      | some db => exact .recorded hw
  | beginDisposition d => exact .began d input.now
  | updateNcr d now => exact ran_taking who input st d now
  | updateHolds d now row =>
      simp only [run]
      split
      · exact .waited _
      · rename_i hwaits
        refine .tookHolds now row fun id hid => ?_
        rw [List.any_eq_true] at hwaits
        exact Bool.eq_false_iff.mpr fun hwait => hwaits ⟨id, hid, hwait⟩
  | commitDisposition d now row released => exact .disposed d now row released
  | placeHold entityType entityId reason createdBy =>
      simp only [run, Db.placeHold]
      cases hinsert : insertHold st.db
          (newHold input.now input.id entityType entityId reason createdBy none) with
      | error e => exact .refused _ rfl
      | ok db =>
          obtain ⟨holds, hins, rfl⟩ := insertHold_ok hinsert
          exact .placed hins ⟨input.now, input.id, rfl⟩
  | releaseHold holdId releasedBy => exact ran_releasing who input st holdId releasedBy
  | checkLot i =>
      simp only [run]
      split
      · exact .refused _ rfl
      · rename_i hfree
        refine .checkedLot fun l hl => ?_
        rw [Option.mem_def.mp hl] at hfree
        exact Bool.eq_false_iff.mpr hfree
  | checkSerial i =>
      simp only [run]
      split
      · exact .refused _ rfl
      · rename_i hfree
        refine .checkedSerial fun l hl => ?_
        rw [Option.mem_def.mp hl] at hfree
        exact Bool.eq_false_iff.mpr hfree
  | insertIssue i =>
      simp only [run]
      split
      · exact .refused _ rfl
      · rename_i db hinsert
        obtain ⟨txns, hins, rfl⟩ := insertIssue_ok hinsert
        exact .issued hins rfl rfl
  | ended reply => exact .waited _

theorem ran_rollback (who : ℕ) (st : Store) (ph : Phase) : Ran who st ph (rollback st ph) := by
  cases ph with
  | ended reply => exact .waited _
  | readLimits | insertResult | insertNcr | insertHold | commitResult | beginDisposition
  | updateNcr | updateHolds | commitDisposition | placeHold | releaseHold | checkLot
  | checkSerial | insertIssue => exact .refused _ rfl

/-- Every statement does one of these. -/
theorem ran_exec (who : ℕ) (input : Input) (st : Store) (c : Session) :
    Ran who st c.phase ((exec who input st c).1, (exec who input st c).2.phase) := by
  unfold exec
  split
  · exact ran_rollback who st c.phase
  · exact ran_run who input st c.phase

end Ran

end ElectronixMes.Quality.Interleaving
