import ElectronixMes.Db.RepoCmms
import ElectronixMes.Transition.Sessions

/-!
# Maintenance orders under concurrent transitions

A transition locks the order's row, checks the move against the status it finds there,
writes the row and commits. Calls on any orders, and the creation of further orders, are
interleaved statement by statement; a connection may be lost at any of them.

## Implementation notes

`now()` is the start of the transaction, so the clock is read when it begins. What a
transaction has written is local to its session until the commit; the row lock keeps every
other transition of the order waiting until then.
-/

namespace ElectronixMes.Maintenance

open Db ElectronixMes.Core Relational Transition

/-- The committed tables, and the sessions that hold rows of maintenance orders. -/
structure Store where
  db : CmmsDatabase
  locks : Locks String

/-- The clock, a drawn id, and whether the connection is lost instead. -/
structure Input where
  now : Int
  id : String
  lost : Bool := false

inductive Request where
  | create (workCenterId : String) (pmScheduleId : Option String) (woType : String)
      (notes : Option String)
  | transition (id next : String) (technicianId failureCode : Option String)

/-- What a transition carries from statement to statement. -/
structure Advance where
  id : String
  next : MaintenanceStatus
  technicianId : Option String
  failureCode : Option String

/-- The next statement of a request, with the variables it has read. -/
inductive Phase where
  | insert (workCenterId : String) (pmScheduleId : Option String) (woType : String)
      (notes : Option String)
  | begin (a : Advance)
  | selectForUpdate (a : Advance) (now : Int)
  | update (a : Advance) (now : Int)
  | commit (updated : MaintenanceWoRow)
  | ended (reply : Except RepoError MaintenanceWoRow)

def Request.phase : Request → Phase
  | create workCenterId pmScheduleId woType notes =>
      .insert workCenterId pmScheduleId woType notes
  | transition id next technicianId failureCode =>
      match MaintenanceStatus.parse next with
      | none => .ended (.error (.invalidReference "unknown status"))
      | some next => .begin ⟨id, next, technicianId, failureCode⟩

def failed (st : Store) (e : RepoError) : Store × Phase := (st, .ended (.error e))

def Store.unlock (st : Store) (id : String) : Store :=
  { st with locks := st.locks.release id }

/-- One statement of a session whose connection holds. -/
def run (who : ℕ) (input : Input) (st : Store) : Phase → Store × Phase
  | .insert workCenterId pmScheduleId woType notes =>
      match createMaintenanceWo st.db input.now input.id workCenterId pmScheduleId woType notes with
      | .error e => failed st e
      | .ok (db, row) => ({ st with db }, .ended (.ok row))
  | .begin a => (st, .selectForUpdate a input.now)
  | .selectForUpdate a now =>
      if st.locks.waits who a.id then (st, .selectForUpdate a now)
      else
        match st.db.maintenanceWos.lookup a.id with
        | none => failed st .notFound
        | some r =>
            match checkTransition r a.next with
            | .error e => failed st e
            | .ok _ => ({ st with locks := st.locks.take who a.id }, .update a now)
  | .update a now =>
      match st.db.maintenanceWos.lookup a.id with
      | none => failed (st.unlock a.id) (mapSqlx .rowNotFound)
      | some r =>
          match technicianRef st.db a.technicianId with
          | .error e => failed (st.unlock a.id) (mapSqlx e)
          | .ok () => (st, .commit (r.advanced now a.next a.technicianId a.failureCode))
  | .commit updated =>
      ({ st.unlock updated.id with
          db := { st.db with maintenanceWos := st.db.maintenanceWos.put updated } },
        .ended (.ok updated))
  | .ended reply => (st, .ended reply)

/-- What a client sees of a lost connection. -/
def connectionLost : RepoError := .db (.other "connection lost")

/-- A lost connection rolls an open transaction back and releases its row. -/
def rollback (st : Store) : Phase → Store × Phase
  | .update a _ => failed (st.unlock a.id) connectionLost
  | .commit updated => failed (st.unlock updated.id) connectionLost
  | .ended reply => (st, .ended reply)
  | _ => failed st connectionLost

def exec (who : ℕ) (input : Input) (st : Store) (ph : Phase) : Store × Phase :=
  if input.lost then rollback st ph else run who input st ph

abbrev State := Sessions Store Phase

abbrev Schedule := List (Move Request Input)

def step : State → Move Request Input → State := Sessions.step Request.phase exec

/-- A database without open sessions. -/
def opened (db : CmmsDatabase) : State := ⟨⟨db, .free⟩, []⟩

/-- The state after the first `k` moves. -/
def stateAt (db : CmmsDatabase) (moves : Schedule) (k : ℕ) : State :=
  (moves.take k).foldl step (opened db)

section Alone

/-- The first `n` statements of a session that runs alone and keeps its connection. -/
def alone (now : Int) (id : String) : ℕ → Store × Phase → Store × Phase
  | 0, p => p
  | n + 1, p => alone now id n (run 0 { now, id } p.1 p.2)

theorem alone_ended (now : Int) (id : String) (n : ℕ) (st : Store)
    (reply : Except RepoError MaintenanceWoRow) :
    alone now id n (st, .ended reply) = (st, .ended reply) := by
  induction n with
  | zero => rfl
  | succ n ih => exact ih

theorem alone_succ (now : Int) (id : String) (n : ℕ) (p : Store × Phase) :
    alone now id (n + 1) p = alone now id n (run 0 { now, id } p.1 p.2) := rfl

/-- Alone, a transition is the function of the repository. -/
theorem alone_transition (db : CmmsDatabase) (now : Int) (drawn id next : String)
    (technicianId failureCode : Option String) :
    let res := transitionMaintenanceWo db now id next technicianId failureCode
    alone now drawn 4 (⟨db, .free⟩, (Request.transition id next technicianId failureCode).phase)
      = (⟨(res.map Prod.fst).toOption.getD db, .free⟩, .ended (res.map Prod.snd)) := by
  simp only [Request.phase, transitionMaintenanceWo]
  cases MaintenanceStatus.parse next with
  | none => exact alone_ended now drawn 4 _ _
  | some next =>
      have hfree : Locks.free.waits 0 id = false := rfl
      dsimp only
      rw [alone_succ, run, alone_succ, run, if_neg (by simp [hfree])]
      cases hr : db.maintenanceWos.lookup id with
      | none => exact alone_ended now drawn 2 _ _
      | some r =>
          dsimp only
          cases checkTransition r next with
          | error e => exact alone_ended now drawn 2 _ _
          | ok cur =>
              dsimp only
              rw [alone_succ, run, hr]
              cases technicianRef db technicianId with
              | error e =>
                  simp only [failed, Store.unlock, Locks.release_take]
                  exact alone_ended now drawn 1 _ _
              | ok _ =>
                  have hid : r.id = id := (Table.lookup_eq_some.mp hr).2
                  dsimp only
                  rw [alone_succ, run]
                  simp only [Store.unlock, advanced_id, hid, Locks.release_take]
                  rfl

end Alone

section Ran

/-- The order whose row a session holds. -/
def Phase.held? : Phase → Option String
  | .update a _ => some a.id
  | .commit updated => some updated.id
  | _ => none

def Phase.isEnded : Phase → Bool
  | .ended _ => true
  | _ => false

/-- What one statement can do, by the phase it is taken in. -/
inductive Ran (who : ℕ) (st : Store) : Phase → Store × Phase → Prop
  | refused {ph : Phase} (e : RepoError) (holds : ph.held? = none) (runs : ph.isEnded = false) :
      Ran who st ph (st, .ended (.error e))
  | aborted {ph : Phase} {id : String} (e : RepoError) (holds : ph.held? = some id) :
      Ran who st ph (st.unlock id, .ended (.error e))
  | created {workCenterId woType : String} {pmScheduleId notes : Option String}
      {row : MaintenanceWoRow} {maintenanceWos : Table MaintenanceWoRow}
      (insert : st.db.maintenanceWos.insert? row = some maintenanceWos)
      (requested : row.status = "requested") :
      Ran who st (.insert workCenterId pmScheduleId woType notes)
        ({ st with db := { st.db with maintenanceWos } }, .ended (.ok row))
  | began (a : Advance) (now : Int) : Ran who st (.begin a) (st, .selectForUpdate a now)
  | waited (a : Advance) (now : Int) :
      Ran who st (.selectForUpdate a now) (st, .selectForUpdate a now)
  | locked {a : Advance} {r : MaintenanceWoRow} {cur : MaintenanceStatus} (now : Int)
      (grants : st.locks.waits who a.id = false)
      (stored : st.db.maintenanceWos.lookup a.id = some r)
      (parsed : MaintenanceStatus.parse r.status = some cur)
      (can : cur.canTransition a.next = true) :
      Ran who st (.selectForUpdate a now)
        ({ st with locks := st.locks.take who a.id }, .update a now)
  | updated {a : Advance} {r : MaintenanceWoRow} (now : Int)
      (stored : st.db.maintenanceWos.lookup a.id = some r) :
      Ran who st (.update a now)
        (st, .commit (r.advanced now a.next a.technicianId a.failureCode))
  | committed (updated : MaintenanceWoRow) :
      Ran who st (.commit updated)
        ({ st.unlock updated.id with
            db := { st.db with maintenanceWos := st.db.maintenanceWos.put updated } },
          .ended (.ok updated))
  | ended (reply : Except RepoError MaintenanceWoRow) :
      Ran who st (.ended reply) (st, .ended reply)

theorem ran_run (who : ℕ) (input : Input) (st : Store) (ph : Phase) :
    Ran who st ph (run who input st ph) := by
  cases ph with
  | insert workCenterId pmScheduleId woType notes =>
      simp only [run]
      cases hcreate : createMaintenanceWo st.db input.now input.id workCenterId pmScheduleId
          woType notes with
      | error e => exact .refused e rfl rfl
      | ok res =>
          obtain ⟨db, row⟩ := res
          obtain ⟨type, hrow, wos, hins, hdb⟩ := createMaintenanceWo_ok hcreate
          obtain rfl : db = _ := hdb
          exact .created hins (congrArg MaintenanceWoRow.status hrow)
  | begin a => exact .began a input.now
  | selectForUpdate a now =>
      simp only [run]
      cases hwaits : st.locks.waits who a.id with
      | true => exact .waited a now
      | false =>
          simp only [Bool.false_eq_true, if_false]
          cases hr : st.db.maintenanceWos.lookup a.id with
          | none => exact .refused _ rfl rfl
          | some r =>
              dsimp only
              cases hcheck : checkTransition r a.next with
              | error e => exact .refused e rfl rfl
              | ok cur =>
                  obtain ⟨hparse, hcan⟩ := checkTransition_ok hcheck
                  exact .locked now hwaits hr hparse hcan
  | update a now =>
      simp only [run]
      cases hr : st.db.maintenanceWos.lookup a.id with
      | none => exact .aborted _ rfl
      | some r =>
          dsimp only
          cases technicianRef st.db a.technicianId with
          | error e => exact .aborted _ rfl
          | ok _ => exact .updated now hr
  | commit updated => exact .committed updated
  | ended reply => exact .ended reply

theorem ran_rollback (who : ℕ) (st : Store) (ph : Phase) : Ran who st ph (rollback st ph) := by
  cases ph with
  | insert | begin | selectForUpdate => exact .refused _ rfl rfl
  | update | commit => exact .aborted _ rfl
  | ended reply => exact .ended reply

/-- Every statement does one of these. -/
theorem ran_exec (who : ℕ) (input : Input) (st : Store) (ph : Phase) :
    Ran who st ph (exec who input st ph) := by
  unfold exec
  split
  · exact ran_rollback who st ph
  · exact ran_run who input st ph

end Ran

section Held

/-- What a session knows while it holds a row: the row is the one it checked. -/
def Assertion (st : Store) (who : ℕ) : Phase → Prop
  | .update a _ => st.locks a.id = some who ∧
      ∃ r cur, st.db.maintenanceWos.lookup a.id = some r ∧
        MaintenanceStatus.parse r.status = some cur ∧ cur.canTransition a.next = true
  | .commit updated => st.locks updated.id = some who ∧
      ∃ r cur next now technicianId failureCode,
        st.db.maintenanceWos.lookup updated.id = some r ∧
        MaintenanceStatus.parse r.status = some cur ∧ cur.canTransition next = true ∧
        updated = r.advanced now next technicianId failureCode
  | _ => True

variable {st st' : Store} {who i : ℕ} {ph : Phase} {res : Store × Phase}

theorem Assertion.held (h : Assertion st who ph) {id : String} (hheld : ph.held? = some id) :
    st.locks id = some who := by
  cases ph with
  | update a now =>
      cases hheld
      exact h.1
  | commit updated =>
      cases hheld
      exact h.1
  | insert | begin | selectForUpdate | ended => cases hheld

/-- A step that leaves a session's lock and the rows it holds alone keeps what it knows. -/
theorem Assertion.of_held (h : Assertion st who ph)
    (hlocks : ∀ k, st.locks k = some who → st'.locks k = some who)
    (hrows : ∀ k r, st.locks k = some who → st.db.maintenanceWos.lookup k = some r →
      st'.db.maintenanceWos.lookup k = some r) : Assertion st' who ph := by
  cases ph with
  | update a now =>
      obtain ⟨hlock, r, cur, hr, hrest⟩ := h
      exact ⟨hlocks _ hlock, r, cur, hrows _ r hlock hr, hrest⟩
  | commit updated =>
      obtain ⟨hlock, r, cur, next, now, technician, failure, hr, hrest⟩ := h
      exact ⟨hlocks _ hlock, r, cur, next, now, technician, failure, hrows _ r hlock hr, hrest⟩
  | insert | begin | selectForUpdate | ended => trivial

theorem lookup_insert_of_some {t t' : Table MaintenanceWoRow} {row r : MaintenanceWoRow}
    {k : String} (hins : t.insert? row = some t') (hr : t.lookup k = some r) :
    t'.lookup k = some r := by
  rw [Table.lookup_insert? hins, if_neg, hr]
  rintro rfl
  rw [Table.lookup_of_insert? hins] at hr
  cases hr

theorem assertion_own (hran : Ran who st ph res) (h : Assertion st who ph) :
    Assertion res.1 who res.2 := by
  cases hran with
  | locked now grants stored parsed can =>
      exact ⟨Locks.take_self _ _ _, _, _, stored, parsed, can⟩
  | @updated a r now stored =>
      obtain ⟨hlock, r', cur, hr', hparse, hcan⟩ := h
      rw [stored, Option.some.injEq] at hr'
      subst hr'
      have hid : r.id = a.id := (Table.lookup_eq_some.mp stored).2
      refine ⟨?_, r, cur, a.next, now, a.technicianId, a.failureCode, ?_, hparse, hcan, rfl⟩
      · rw [advanced_id, hid]
        exact hlock
      · rw [advanced_id, hid]
        exact stored
  | refused | aborted | created | began | waited | committed | ended => trivial

theorem assertion_other (hran : Ran who st ph res) (hown : Assertion st who ph) (hi : i ≠ who)
    {u : Phase} (h : Assertion st i u) : Assertion res.1 i u := by
  cases hran with
  | aborted e holds =>
      refine h.of_held (fun k hk => ?_) fun k r _ hr => hr
      exact Locks.release_of_held (hown.held holds) hi hk
  | created insert requested =>
      exact h.of_held (fun k hk => hk) fun k r _ hr => lookup_insert_of_some insert hr
  | locked now grants stored parsed can =>
      refine h.of_held (fun k hk => ?_) fun k r _ hr => hr
      exact Locks.take_of_held grants hi hk
  | committed updated =>
      have hlock : st.locks updated.id = some who := hown.held rfl
      refine h.of_held (fun k hk => Locks.release_of_held hlock hi hk) fun k r hk hr => ?_
      refine (Table.lookup_put_of_ne ?_).trans hr
      rintro rfl
      rw [key_maintenanceWo, hlock, Option.some.injEq] at hk
      exact hi hk.symm
  | refused | began | waited | updated | ended => exact h

/-- In every reachable state a session that holds a row knows what stands in it. -/
theorem inv_run {s : State} (h : Sessions.Inv (fun _ => True) Assertion s) (moves : Schedule) :
    Sessions.Inv (fun _ => True) Assertion (moves.foldl step s) := by
  refine h.run ?_ ?_ ?_ moves
  · intro st i r _
    cases r with
    | create => trivial
    | transition id next technicianId failureCode =>
        unfold Request.phase
        dsimp only
        split <;> trivial
  · intro who input st t _ h
    exact ⟨trivial, assertion_own (ran_exec who input st t) h⟩
  · intro who input st t i u hi _ hown h
    exact assertion_other (ran_exec who input st t) hown hi h

end Held

section Steps

/-- The committed row of an order. -/
def Store.row (st : Store) (id : String) : Option MaintenanceWoRow :=
  st.db.maintenanceWos.lookup id

/-- A call has returned the order in this status. -/
def Phase.Succeeded (id : String) (status : MaintenanceStatus) (ph : Phase) : Prop :=
  ∃ row, ph = .ended (.ok row) ∧ row.id = id ∧ row.status = status.asStr

/-- The call of this session took the order to this status. -/
def Succeeded (s : State) (id : String) (status : MaintenanceStatus) (i : ℕ) : Prop :=
  ∃ ph, s.threads[i]? = some ph ∧ ph.Succeeded id status

variable {s : State} {id : String}

theorem not_succeeded_phase (r : Request) (status : MaintenanceStatus) :
    ¬ (Request.phase r).Succeeded id status := by
  rintro ⟨row, hph, -⟩
  cases r with
  | create => cases hph
  | transition id next technicianId failureCode =>
      unfold Request.phase at hph
      dsimp only at hph
      split at hph <;> cases hph

theorem not_succeeded_of_runs {ph : Phase} (h : ph.isEnded = false)
    (status : MaintenanceStatus) : ¬ ph.Succeeded id status := by
  rintro ⟨row, rfl, -⟩
  cases h

theorem not_succeeded_error (e : RepoError) (status : MaintenanceStatus) :
    ¬ (Phase.ended (.error e)).Succeeded id status := by
  rintro ⟨row, hrow, -⟩
  cases hrow

theorem isEnded_of_held {ph : Phase} {held : String} (h : ph.held? = some held) :
    ph.isEnded = false := by
  cases ph with
  | ended => cases h
  | insert | begin | selectForUpdate | update | commit => rfl

theorem succeeded_call (r : Request) (status : MaintenanceStatus) (i : ℕ) :
    Succeeded ⟨s.store, s.threads ++ [Request.phase r]⟩ id status i ↔ Succeeded s id status i := by
  constructor
  · rintro ⟨ph, hph, hsucc⟩
    rcases Nat.lt_or_ge i s.threads.length with hlt | hge
    · rw [List.getElem?_append_left hlt] at hph
      exact ⟨ph, hph, hsucc⟩
    · have hmem := List.mem_of_getElem? (List.getElem?_append_right hge ▸ hph)
      rw [List.mem_singleton.mp hmem] at hsucc
      exact absurd hsucc (not_succeeded_phase r status)
  · rintro ⟨ph, hph, hsucc⟩
    refine ⟨ph, ?_, hsucc⟩
    rw [List.getElem?_append_left (List.getElem?_eq_some_iff.mp hph).1]
    exact hph

/-- Only the advanced session can have succeeded newly. -/
theorem succeeded_set {st : Store} {who : ℕ} {ph ph' : Phase} {status : MaintenanceStatus}
    (hph : s.threads[who]? = some ph) (i : ℕ) :
    Succeeded ⟨st, s.threads.set who ph'⟩ id status i
      ↔ i = who ∧ ph'.Succeeded id status ∨ i ≠ who ∧ Succeeded s id status i := by
  by_cases hi : i = who
  · subst hi
    have hset : (s.threads.set i ph')[i]? = some ph' :=
      List.getElem?_set_self (List.getElem?_eq_some_iff.mp hph).1
    simp [Succeeded, hset]
  · simp [Succeeded, List.getElem?_set_ne (fun h => hi h.symm), hi]

theorem succeeded_of_iff {st : Store} {who : ℕ} {ph ph' : Phase} {status : MaintenanceStatus}
    (hph : s.threads[who]? = some ph) (h : ph'.Succeeded id status ↔ ph.Succeeded id status)
    (i : ℕ) :
    Succeeded ⟨st, s.threads.set who ph'⟩ id status i ↔ Succeeded s id status i := by
  rw [succeeded_set hph i, h]
  by_cases hi : i = who
  · subst hi
    simp [Succeeded, hph]
  · simp [hi]

/-- One move leaves an order alone and lets no call on it succeed, or it is the commit of
the one call that takes the order a step further. -/
theorem step_row (hinv : Sessions.Inv (fun _ => True) Assertion s) {r : MaintenanceWoRow}
    (hr : s.store.row id = some r) (m : Move Request Input) :
    ((step s m).store.row id = some r ∧ ∀ status, status ≠ .requested → ∀ i,
      (Succeeded (step s m) id status i ↔ Succeeded s id status i)) ∨
    ∃ i input cur next now technicianId failureCode, m = .advance i input ∧
      MaintenanceStatus.parse r.status = some cur ∧ cur.canTransition next = true ∧
      (step s m).store.row id = some (r.advanced now next technicianId failureCode) ∧
      (step s m).threads[i]? =
        some (.ended (.ok (r.advanced now next technicianId failureCode))) ∧
      ∀ status, status ≠ .requested → ∀ j,
        (Succeeded (step s m) id status j ↔
          Succeeded s id status j ∨ j = i ∧ status = next) := by
  rcases Sessions.step_cases Request.phase exec s m with
    ⟨request, -, heq⟩ | heq | ⟨who, input, ph, rfl, hph, heq⟩
  · refine Or.inl ⟨?_, fun status _ i => ?_⟩
    · rw [step, heq]
      exact hr
    · rw [step, heq]
      exact succeeded_call request status i
  · refine Or.inl ⟨?_, fun status _ i => ?_⟩
    · rw [step, heq]
      exact hr
    · rw [step, heq]
  · have hown := hinv.2 who ph hph
    have hran := ran_exec who input s.store ph
    rw [step, heq]
    generalize exec who input s.store ph = res at hran ⊢
    -- a statement that is no commit leaves the row alone and lets nothing succeed
    have hquiet {st' : Store} {ph' : Phase} (hst : st'.row id = some r)
        (hph' : ∀ status, status ≠ .requested →
          (ph'.Succeeded id status ↔ ph.Succeeded id status)) :
        st'.row id = some r ∧ ∀ status, status ≠ .requested → ∀ i,
          (Succeeded ⟨st', s.threads.set who ph'⟩ id status i ↔ Succeeded s id status i) :=
      ⟨hst, fun status hne i => succeeded_of_iff hph (hph' status hne) i⟩
    cases hran with
    | refused e holds runs =>
        exact Or.inl (hquiet hr fun status _ =>
          iff_of_false (not_succeeded_error e status) (not_succeeded_of_runs runs status))
    | aborted e holds =>
        exact Or.inl (hquiet hr fun status _ => iff_of_false (not_succeeded_error e status)
          (not_succeeded_of_runs (isEnded_of_held holds) status))
    | created insert requested =>
        refine Or.inl (hquiet (lookup_insert_of_some insert hr) fun status hne =>
          iff_of_false ?_ (not_succeeded_of_runs rfl status))
        rintro ⟨row, hrow, -, hstatus⟩
        cases hrow
        rw [requested] at hstatus
        exact hne (MaintenanceStatus.asStr_injective hstatus.symm)
    | began a now | waited a now =>
        exact Or.inl (hquiet hr fun status _ =>
          iff_of_false (not_succeeded_of_runs rfl status) (not_succeeded_of_runs rfl status))
    | locked now grants stored parsed can =>
        exact Or.inl (hquiet hr fun status _ =>
          iff_of_false (not_succeeded_of_runs rfl status) (not_succeeded_of_runs rfl status))
    | updated now stored =>
        exact Or.inl (hquiet hr fun status _ =>
          iff_of_false (not_succeeded_of_runs rfl status) (not_succeeded_of_runs rfl status))
    | ended reply => exact Or.inl (hquiet hr fun status _ => Iff.rfl)
    | committed updated =>
        obtain ⟨-, r', cur, next, now, technician, failure, hr', hparse, hcan, rfl⟩ := hown
        by_cases hid : id = r'.id
        · have hrr : r' = r := by
            rw [advanced_id, ← hid] at hr'
            exact Option.some.inj (hr'.symm.trans hr)
          subst hrr
          refine Or.inr ⟨who, input, cur, next, now, technician, failure, rfl, hparse, hcan,
            ?_, List.getElem?_set_self (List.getElem?_eq_some_iff.mp hph).1, ?_⟩
          · rw [hid, ← advanced_id (r := r') now next technician failure]
            exact Table.lookup_put_self _ _
          · intro status _ j
            rw [succeeded_set hph j]
            constructor
            · rintro (⟨rfl, row, hrow, -, hstatus⟩ | ⟨-, hsucc⟩)
              · cases hrow
                exact Or.inr ⟨rfl, MaintenanceStatus.asStr_injective hstatus.symm⟩
              · exact Or.inl hsucc
            · rintro (⟨ph', hph', hsucc⟩ | ⟨rfl, rfl⟩)
              · refine Or.inr ⟨?_, ph', hph', hsucc⟩
                rintro rfl
                rw [hph, Option.some.injEq] at hph'
                subst hph'
                exact not_succeeded_of_runs rfl status hsucc
              · exact Or.inl ⟨rfl, _, rfl, by rw [advanced_id, hid], rfl⟩
        · refine Or.inl (hquiet ?_ fun status _ =>
            iff_of_false ?_ (not_succeeded_of_runs rfl status))
          · exact (Table.lookup_put_of_ne (by simpa using hid)).trans hr
          · rintro ⟨row, hrow, hrowid, -⟩
            cases hrow
            exact hid (by simpa using hrowid.symm)

end Steps

section Runs

/-- The time stamps are set exactly for the steps taken. -/
structure Stamped (r : MaintenanceWoRow) (status : MaintenanceStatus) : Prop where
  scheduled : r.scheduledAt.isSome ↔ MaintenanceStatus.scheduled.rank ≤ status.rank
  started : r.startedAt.isSome ↔ MaintenanceStatus.inProgress.rank ≤ status.rank
  closed : r.closedAt.isSome ↔ MaintenanceStatus.completed.rank ≤ status.rank
  verified : r.verifiedAt.isSome ↔ MaintenanceStatus.verified.rank ≤ status.rank

theorem Stamped.advanced {r : MaintenanceWoRow} {cur next : MaintenanceStatus}
    (h : Stamped r cur) (hcan : cur.canTransition next = true) (now : Int)
    (technicianId failureCode : Option String) :
    Stamped (r.advanced now next technicianId failureCode) next := by
  obtain ⟨hscheduled, hstarted, hclosed, hverified⟩ := h
  cases cur <;> cases next <;> first
    | exact absurd hcan (by decide)
    | constructor <;> simp_all [MaintenanceWoRow.advanced, MaintenanceWoRow.stamped,
        MaintenanceStatus.rank]

theorem advanced_openedAt {r : MaintenanceWoRow} {cur next : MaintenanceStatus}
    (hcan : cur.canTransition next = true) (now : Int) (technicianId failureCode : Option String) :
    (r.advanced now next technicianId failureCode).openedAt = r.openedAt := by
  cases next with
  | requested => cases cur <;> cases hcan
  | scheduled | inProgress | completed | verified => rfl

/-- An order that has come to a status: the time stamps up to it are set, each step up to
it was taken by one call, and no call has succeeded beyond it. -/
structure Reached (s : State) (id : String) (openedAt : Int) (r : MaintenanceWoRow)
    (cur : MaintenanceStatus) : Prop where
  stored : s.store.row id = some r
  status : r.status = cur.asStr
  stamped : Stamped r cur
  opened : r.openedAt = openedAt
  taken : ∀ status, status ≠ .requested → status.rank ≤ cur.rank → ∃! i, Succeeded s id status i
  ahead : ∀ status i, cur.rank < status.rank → ¬ Succeeded s id status i

variable {s : State} {id : String} {openedAt : Int} {r : MaintenanceWoRow}
  {cur : MaintenanceStatus}

/-- One move leaves an order where it is or takes it exactly one step further. -/
theorem Reached.step (h : Reached s id openedAt r cur)
    (hinv : Sessions.Inv (fun _ => True) Assertion s) (m : Move Request Input) :
    Reached (step s m) id openedAt r cur ∨
      ∃ i input next r', m = .advance i input ∧ cur.canTransition next = true ∧
        (Maintenance.step s m).threads[i]? = some (.ended (.ok r')) ∧
        Reached (Maintenance.step s m) id openedAt r' next := by
  rcases step_row hinv h.stored m with
    ⟨hr, hsame⟩ |
      ⟨i, input, cur', next, now, technician, failure, rfl, hparse, hcan, hr, hended, hnew⟩
  · refine Or.inl ⟨hr, h.status, h.stamped, h.opened, ?_, ?_⟩
    · intro status hne hle
      obtain ⟨i, hi, hunique⟩ := h.taken status hne hle
      exact ⟨i, (hsame status hne i).mpr hi, fun j hj => hunique j ((hsame status hne j).mp hj)⟩
    · intro status i hlt hsucc
      have hne : status ≠ .requested := by
        rintro rfl
        exact Nat.not_lt_zero _ hlt
      exact h.ahead status i hlt ((hsame status hne i).mp hsucc)
  · rw [h.status, MaintenanceStatus.parse_asStr, Option.some.injEq] at hparse
    subst hparse
    have hrank := MaintenanceStatus.rank_of_canTransition hcan
    refine Or.inr ⟨i, input, next, _, rfl, hcan, hended, hr, rfl,
      h.stamped.advanced hcan now technician failure, ?_, ?_, ?_⟩
    · rw [advanced_openedAt hcan, h.opened]
    · intro status hne hle
      by_cases hnext : status = next
      · subst hnext
        refine ⟨i, (hnew status hne i).mpr (Or.inr ⟨rfl, rfl⟩), ?_⟩
        intro j hj
        rcases (hnew status hne j).mp hj with hold | ⟨hji, -⟩
        · exact absurd hold (h.ahead status j (by omega))
        · exact hji
      · have hle' : status.rank ≤ cur.rank := by
          have hne' : status.rank ≠ next.rank := fun heq =>
            hnext (MaintenanceStatus.rank_injective heq)
          omega
        obtain ⟨j, hj, hunique⟩ := h.taken status hne hle'
        refine ⟨j, (hnew status hne j).mpr (Or.inl hj), ?_⟩
        intro k hk
        rcases (hnew status hne k).mp hk with hold | ⟨-, heq⟩
        · exact hunique k hold
        · exact absurd heq hnext
    · intro status j hlt hsucc
      have hne : status ≠ .requested := by
        rintro rfl
        exact Nat.not_lt_zero _ hlt
      rcases (hnew status hne j).mp hsucc with hold | ⟨-, rfl⟩
      · exact h.ahead status j (by omega) hold
      · exact Nat.lt_irrefl _ hlt

/-- The statuses the order has in the committed states of a run, each change once. -/
def trail (id : String) : State → Schedule → List String
  | s, [] => ((s.store.row id).map MaintenanceWoRow.status).toList
  | s, m :: rest =>
      if (step s m).store.row id = s.store.row id then trail id (step s m) rest
      else ((s.store.row id).map MaintenanceWoRow.status).toList ++ trail id (step s m) rest

theorem Reached.run (h : Reached s id openedAt r cur)
    (hinv : Sessions.Inv (fun _ => True) Assertion s) (moves : Schedule) :
    ∃ r' cur', Reached (moves.foldl Maintenance.step s) id openedAt r' cur' := by
  induction moves generalizing s r cur with
  | nil => exact ⟨r, cur, h⟩
  | cons m rest ih =>
      have hinv' := inv_run hinv [m]
      rcases h.step hinv m with hsame | ⟨_, _, next, r', -, -, -, hnext⟩
      · exact ih hsame hinv'
      · exact ih hnext hinv'

/-- The statuses of a run are the lifecycle from where the order stands, up to some point. -/
theorem Reached.trail_prefix (h : Reached s id openedAt r cur)
    (hinv : Sessions.Inv (fun _ => True) Assertion s) (moves : Schedule) :
    trail id s moves
      <+: (MaintenanceStatus.lifecycle.drop cur.rank).map MaintenanceStatus.asStr := by
  have hstatus : ((s.store.row id).map MaintenanceWoRow.status).toList = [cur.asStr] := by
    rw [h.stored, Option.map_some, h.status]
    rfl
  induction moves generalizing s r cur with
  | nil =>
      rw [trail, hstatus]
      exact (MaintenanceStatus.singleton_prefix_drop cur).map _
  | cons m rest ih =>
      have hinv' := inv_run hinv [m]
      have hstatus' {r' : MaintenanceWoRow} {next : MaintenanceStatus}
          (h' : Reached (Maintenance.step s m) id openedAt r' next) :
          (((Maintenance.step s m).store.row id).map MaintenanceWoRow.status).toList
            = [next.asStr] := by
        rw [h'.stored, Option.map_some, h'.status]
        rfl
      rw [trail]
      rcases h.step hinv m with hsame | ⟨i, input, next, r', -, hcan, -, hnext⟩
      · rw [if_pos (hsame.stored.trans h.stored.symm)]
        exact ih hsame hinv' (hstatus' hsame)
      · have hmoved : (Maintenance.step s m).store.row id ≠ s.store.row id := by
          intro heq
          rw [hnext.stored, h.stored, Option.some.injEq] at heq
          subst heq
          have hsame := MaintenanceStatus.asStr_injective (h.status.symm.trans hnext.status)
          have hrank := MaintenanceStatus.rank_of_canTransition hcan
          rw [hsame] at hrank
          omega
        rw [if_neg hmoved, hstatus, MaintenanceStatus.drop_lifecycle hcan, List.map_cons,
          List.singleton_append, List.cons_prefix_cons]
        exact ⟨rfl, ih hnext hinv' (hstatus' hnext)⟩

/-- A call that has returned stays as it is. -/
theorem ended_run {i : ℕ} {reply : Except RepoError MaintenanceWoRow}
    (h : s.threads[i]? = some (.ended reply)) (moves : Schedule) :
    (moves.foldl Maintenance.step s).threads[i]? = some (.ended reply) := by
  refine Sessions.thread_final _ _ (fun input st => ?_) h moves
  unfold exec
  split <;> rfl

theorem reached_opened {db₀ db : CmmsDatabase} {now : Int} {workCenterId woType : String}
    {pmScheduleId notes : Option String} {created : MaintenanceWoRow}
    (h : createMaintenanceWo db₀ now id workCenterId pmScheduleId woType notes
      = .ok (db, created)) :
    Reached (opened db) id created.openedAt created .requested := by
  obtain ⟨type, hrow, wos, hins, hdb⟩ := createMaintenanceWo_ok h
  obtain rfl : created = _ := hrow
  obtain rfl : db = _ := hdb
  refine ⟨?_, rfl, ?_, rfl, ?_, ?_⟩
  · exact Table.lookup_insert?_self hins
  · constructor <;> simp [newMaintenanceWo, MaintenanceStatus.rank]
  · intro status hne hle
    have hzero : status.rank = MaintenanceStatus.requested.rank := Nat.le_zero.mp hle
    exact absurd (MaintenanceStatus.rank_injective hzero) hne
  · rintro status i - ⟨ph, hph, -⟩
    cases hph

/-- Maintenance orders advance one step at a time. In every run after an order's creation
its committed statuses are a part of the lifecycle from its start on; in every state its
time stamps are those of the steps taken, each taken by exactly one call; and a call that
returns an error has changed nothing. -/
theorem transitions_advance_one_step (db₀ db : CmmsDatabase) (now : Int)
    (id workCenterId woType : String) (pmScheduleId notes : Option String)
    (created : MaintenanceWoRow)
    (hcreate : createMaintenanceWo db₀ now id workCenterId pmScheduleId woType notes
      = .ok (db, created)) (moves : Schedule) :
    trail id (opened db) moves
        <+: ["requested", "scheduled", "in_progress", "completed", "verified"]
      ∧ (∀ k, ∃ r cur, Reached (stateAt db moves k) id created.openedAt r cur)
      ∧ ∀ i e, (moves.foldl step (opened db)).threads[i]? = some (.ended (.error e)) →
          ∀ k input, moves[k]? = some (.advance i input) →
            (stateAt db moves (k + 1)).store.row id = (stateAt db moves k).store.row id := by
  have hinv : Sessions.Inv (fun _ => True) Assertion (opened db) := Sessions.inv_nil trivial
  have hinit := reached_opened hcreate
  refine ⟨hinit.trail_prefix hinv moves, fun k => hinit.run hinv (moves.take k), ?_⟩
  intro i e hended k input hk
  obtain ⟨r, cur, hreached⟩ := hinit.run hinv (moves.take k)
  have hstep : stateAt db moves (k + 1) = step (stateAt db moves k) (.advance i input) := by
    simp [stateAt, List.take_add_one, hk]
  rw [hstep]
  rcases hreached.step (inv_run hinv (moves.take k)) (.advance i input) with
    hsame | ⟨i', input', next, r', hmove, -, hok, -⟩
  · exact hsame.stored.trans hreached.stored.symm
  · cases hmove
    -- the session that moved the order has returned it, and stays so to the end
    have hfinal := ended_run (s := stateAt db moves (k + 1)) (by rw [hstep]; exact hok)
      (moves.drop (k + 1))
    rw [stateAt, ← List.foldl_append, List.take_append_drop, hended] at hfinal
    cases hfinal

/-- A shop with a press and a technician. -/
def pressShop : CmmsDatabase where
  users := {"tina"}
  workCenters := {"press"}

/-- Two calls schedule the same order at once: the second waits for the row of the first
and then finds the order scheduled. -/
def race : Schedule :=
  [.call (.transition "mwo" "scheduled" (some "tina") none),
    .call (.transition "mwo" "scheduled" none none),
    .advance 0 ⟨5, "", false⟩, .advance 1 ⟨6, "", false⟩, .advance 0 ⟨7, "", false⟩,
    .advance 1 ⟨7, "", false⟩, .advance 0 ⟨8, "", false⟩, .advance 0 ⟨9, "", false⟩,
    .advance 1 ⟨10, "", false⟩]

theorem race_one_step :
    ∃ db created, createMaintenanceWo pressShop 0 "mwo" "press" none "Breakdown" none
        = .ok (db, created)
      ∧ trail "mwo" (opened db) race = ["requested", "scheduled"]
      ∧ ∃ r cur, Reached (stateAt db race 9) "mwo" created.openedAt r cur := by
  refine ⟨_, _, rfl, by decide, ?_⟩
  exact (transitions_advance_one_step pressShop _ 0 "mwo" "press" "Breakdown" none none _ rfl
    race).2.1 9

end Runs

end ElectronixMes.Maintenance
