import ElectronixMes.Derived.Idempotence
import ElectronixMes.Transition.Run

/-!
# Two recomputes at once

Two calls of `recomputeStates` for one work center, interleaved statement by
statement. A call reads its pulses and its planned stops, and then runs the
transaction that replaces the derived rows. Nothing orders the two
transactions: a delete sees the rows that are committed when it starts and
waits for the rows the other transaction has deleted, but never sees the rows
the other has inserted and not committed.

## Implementation notes

A transaction is the list of its writes so far; it sees the committed tables
with these writes applied, and the commit applies them. A delete takes the
rows of its snapshot one at a time, in table order. A key that the other
transaction has inserted and not committed shows at the commit.
-/

namespace ElectronixMes.Derived.Concurrent

open Db ElectronixMes.Core Edge Relational Timeline Transition

/-- One call: its window and the ids it draws. -/
structure Call where
  start : Int
  finish : Int
  ids : ℕ → String

def Call.window (c : Call) : Span Int := ⟨c.start, c.finish⟩

/-- The window as it is bound to the statements. -/
def Call.bound (c : Call) : Span Int := ⟨toSql c.start, toSql c.finish⟩

/-- What an open transaction has deleted, by id, and inserted. -/
structure Writes where
  deletedStates : List String := []
  states : List MachineStateRow := []
  deletedDowntime : List String := []
  downtime : List DowntimeEventRow := []
  deriving DecidableEq

/-- The database as the transaction sees it; an error when one of its inserts
violates a constraint there. -/
def Writes.view (w : Writes) (db : Database) (wc : String) : Except RepoError Database :=
  match insertRows db "machine_states" wc
      (db.machineStates.delete fun r => r.id ∈ w.deletedStates) w.states,
    insertRows db "downtime_events" wc
      (db.downtimeEvents.delete fun r => r.id ∈ w.deletedDowntime) w.downtime with
  | .ok machineStates, .ok downtimeEvents => .ok { db with machineStates, downtimeEvents }
  | .error e, _ => .error e
  | .ok _, .error e => .error e

/-- Where a call stands, with its variables. A running delete keeps the rows of
its snapshot that it has not reached yet. -/
inductive Phase where
  | fetchPulses
  | fetchPlanned (pulses : List Int)
  | ready (states : List MachineStateRow) (downtime : List DowntimeEventRow)
  | deleteStates (scan : List MachineStateRow) (w : Writes) (states : List MachineStateRow)
      (downtime : List DowntimeEventRow)
  | insertStates (w : Writes) (states : List MachineStateRow) (downtime : List DowntimeEventRow)
  | deleteDowntime (scan : List DowntimeEventRow) (w : Writes) (downtime : List DowntimeEventRow)
  | insertDowntime (w : Writes) (downtime : List DowntimeEventRow)
  | committed
  | failed (e : RepoError)
  deriving DecidableEq

namespace Phase

/-- The writes of the open transaction, from the start of its first delete on. -/
def writes? : Phase → Option Writes
  | deleteStates _ w _ _ => some w
  | insertStates w _ _ => some w
  | deleteDowntime _ w _ => some w
  | insertDowntime w _ => some w
  | _ => none

/-- The call is about to start its first delete. -/
def startsDelete : Phase → Bool
  | ready _ _ => true
  | _ => false

def lockedStates (ph : Phase) : List String := (ph.writes?.map Writes.deletedStates).getD []

def lockedDowntime (ph : Phase) : List String := (ph.writes?.map Writes.deletedDowntime).getD []

end Phase

/-- The rows a call inserts for the timeline it computed. -/
def rowsFor (wc : String) (ids : ℕ → String) (states : List StateInterval) :
    List MachineStateRow × List DowntimeEventRow :=
  let downtime := downtimeEvents ids states
  (states.mapIdx fun i iv => stateRow wc (ids (downtime.length + i)) iv,
    downtime.map (downtimeRow wc))

/-- The next statement of a call, or the next row of its running delete. A row
that the other call has deleted and not committed makes it wait. -/
def advance (wc : String) (c : Call) (db : Database) (other : Phase) :
    Phase → Database × Phase
  | .fetchPulses => (db, .fetchPlanned (fetchCyclePulses db wc c.start c.finish))
  | .fetchPlanned pulses =>
      let planned := fetchPlannedIntervals db wc c.start c.finish
      let raw := computeStates .default pulses c.start c.finish
      let rows := rowsFor wc c.ids (applyPlannedStops raw planned)
      (db, .ready rows.1 rows.2)
  | .ready states downtime =>
      (db, .deleteStates (db.machineStates.rows.filter (staleState wc c.bound)) {} states
        downtime)
  | .deleteStates (r :: scan) w states downtime =>
      if r.id ∈ other.lockedStates then (db, .deleteStates (r :: scan) w states downtime)
      else if r ∈ db.machineStates then
        (db, .deleteStates scan { w with deletedStates := r.id :: w.deletedStates } states
          downtime)
      else (db, .deleteStates scan w states downtime)
  | .deleteStates [] w states downtime => (db, .insertStates w states downtime)
  | .insertStates w (r :: states) downtime =>
      let w := { w with states := w.states ++ [r] }
      match w.view db wc with
      | .error e => (db, .failed e)
      | .ok _ => (db, .insertStates w states downtime)
  | .insertStates w [] downtime =>
      (db, .deleteDowntime (db.downtimeEvents.rows.filter (staleDowntime wc c.bound)) w downtime)
  | .deleteDowntime (r :: scan) w downtime =>
      if r.id ∈ other.lockedDowntime then (db, .deleteDowntime (r :: scan) w downtime)
      else if r ∈ db.downtimeEvents then
        (db, .deleteDowntime scan { w with deletedDowntime := r.id :: w.deletedDowntime }
          downtime)
      else (db, .deleteDowntime scan w downtime)
  | .deleteDowntime [] w downtime => (db, .insertDowntime w downtime)
  | .insertDowntime w (r :: downtime) =>
      let w := { w with downtime := w.downtime ++ [r] }
      match w.view db wc with
      | .error e => (db, .failed e)
      | .ok _ => (db, .insertDowntime w downtime)
  | .insertDowntime w [] =>
      match w.view db wc with
      | .error e => (db, .failed e)
      | .ok db => (db, .committed)
  | .committed => (db, .committed)
  | .failed e => (db, .failed e)

/-- The committed database and the two calls. -/
structure Pair where
  db : Database
  phase : Bool → Phase

inductive Action where
  | advance (who : Bool)
  | abort (who : Bool)
  deriving DecidableEq

def step (wc : String) (calls : Bool → Call) (s : Pair) : Action → Pair
  | .advance who =>
      let res := advance wc (calls who) s.db (s.phase !who) (s.phase who)
      { db := res.1, phase := Function.update s.phase who res.2 }
  | .abort who =>
      -- a lost connection rolls back; a committed call is past it
      if s.phase who = .committed then s
      else { s with phase := Function.update s.phase who (.failed (.db (.other "closed"))) }

def initial (db : Database) : Pair := ⟨db, fun _ => .fetchPulses⟩

/-- No call starts its first delete while the other has started its own and
neither committed nor failed. -/
def Exclusive (s : Pair) : Action → Prop
  | .advance who => (s.phase who).startsDelete = true → (s.phase !who).writes? = none
  | .abort _ => True

instance : (s : Pair) → (a : Action) → Decidable (Exclusive s a)
  | s, .advance who => inferInstanceAs
      (Decidable ((s.phase who).startsDelete = true → (s.phase !who).writes? = none))
  | _, .abort _ => inferInstanceAs (Decidable True)

section Rows

variable {wc : String} {c : Call} {db db' D : Database} {w : Writes}

/-- Apart from the derived tables, the database is the one both calls found. -/
def DerivedOnly (D db : Database) : Prop :=
  db = { D with machineStates := db.machineStates, downtimeEvents := db.downtimeEvents }

theorem Writes.view_ok (h : w.view db wc = .ok db') :
    ∃ m d, insertRows db "machine_states" wc
        (db.machineStates.delete fun r => r.id ∈ w.deletedStates) w.states = .ok m ∧
      insertRows db "downtime_events" wc
        (db.downtimeEvents.delete fun r => r.id ∈ w.deletedDowntime) w.downtime = .ok d ∧
      db' = { db with machineStates := m, downtimeEvents := d } := by
  unfold Writes.view at h
  split at h
  · rename_i m d hm hd
    cases h
    exact ⟨m, d, hm, hd, rfl⟩
  · cases h
  · cases h

theorem DerivedOnly.of_view (h : DerivedOnly D db) (hview : w.view db wc = .ok db') :
    DerivedOnly D db' := by
  obtain ⟨m, d, -, -, rfl⟩ := Writes.view_ok hview
  unfold DerivedOnly
  rw [h]

theorem mem_machineStates_of_view (hview : w.view db wc = .ok db') {r : MachineStateRow} :
    r ∈ db'.machineStates ↔ r ∈ db.machineStates ∧ r.id ∉ w.deletedStates ∨ r ∈ w.states := by
  obtain ⟨m, d, hm, -, rfl⟩ := Writes.view_ok hview
  rw [← Table.mem_rows, (rows_of_insertRows hm).1, List.mem_append, Table.mem_rows,
    Table.mem_delete, decide_eq_false_iff_not]

/-- The rows for the timeline computed from what the database stores are the derived ones. -/
theorem rowsFor_computedStates (db : Database) (wc : String) (start finish : Int)
    (ids : ℕ → String) :
    rowsFor wc ids (computedStates db wc start finish) =
      (newStates db wc start finish ids, newDowntime db wc start finish ids) := by
  simp only [rowsFor, length_downtimeEvents, newDowntime, newStates]

/-- A delete over the snapshot `base`: it has taken the rows `deleted` and has yet to reach
`scan`, stale rows of the snapshot all of them, and leaves out no stale row of it that still
stands. -/
structure Takes {ρ : Type} [Keyed ρ String] (base t : Table ρ) (stale : ρ → Bool)
    (deleted : List String) (scan : List ρ) : Prop where
  account : ∀ r ∈ base, r ∈ t → stale r = true → Keyed.key r ∈ deleted ∨ r ∈ scan
  scanned : ∀ r ∈ scan, r ∈ base ∧ stale r = true
  taken : ∀ id ∈ deleted, ∃ r ∈ base, Keyed.key r = id ∧ stale r = true

section Takes

variable {ρ : Type} [Keyed ρ String] {base t : Table ρ} {stale : ρ → Bool}
  {deleted : List String} {scan : List ρ} {r : ρ}

/-- The snapshot of a delete holds the stale rows. -/
theorem Takes.start (t : Table ρ) (stale : ρ → Bool) :
    Takes t t stale [] (t.rows.filter stale) where
  account := fun _ hr _ hstale => Or.inr (List.mem_filter.mpr ⟨hr, hstale⟩)
  scanned := fun _ hr => List.mem_filter.mp hr
  taken := fun _ h => absurd h List.not_mem_nil

/-- The next row of the snapshot is deleted when it still stands. -/
theorem Takes.step (h : Takes base t stale deleted (r :: scan)) :
    (r ∈ t → Takes base t stale (Keyed.key r :: deleted) scan) ∧
      (r ∉ t → Takes base t stale deleted scan) := by
  have hrest : ∀ s ∈ scan, s ∈ base ∧ stale s = true :=
    fun s hs => h.scanned s (List.mem_cons_of_mem r hs)
  refine ⟨fun _ => ⟨?_, hrest, ?_⟩, fun hr => ⟨?_, hrest, h.taken⟩⟩
  · intro s hs hst hstale
    rcases h.account s hs hst hstale with hdel | hscan
    · exact Or.inl (List.mem_cons_of_mem _ hdel)
    · rcases List.mem_cons.mp hscan with rfl | hscan
      · exact Or.inl List.mem_cons_self
      · exact Or.inr hscan
  · intro id hid
    rcases List.mem_cons.mp hid with rfl | hid
    · obtain ⟨hbase, hstale⟩ := h.scanned r List.mem_cons_self
      exact ⟨r, hbase, rfl, hstale⟩
    · exact h.taken id hid
  · intro s hs hst hstale
    rcases h.account s hs hst hstale with hdel | hscan
    · exact Or.inl hdel
    · rcases List.mem_cons.mp hscan with rfl | hscan
      · exact absurd hst hr
      · exact Or.inr hscan

/-- Only what has been deleted or added since makes a difference. -/
theorem Takes.mono {t' : Table ρ} (h : Takes base t stale deleted scan)
    (ht : ∀ r ∈ base, r ∈ t' → r ∈ t) : Takes base t' stale deleted scan where
  account := fun r hr hrt => h.account r hr (ht r hr hrt)
  scanned := h.scanned
  taken := h.taken

/-- A finished delete over the table as it is takes the stale rows. -/
theorem Takes.exact (h : Takes t t stale deleted []) (hr : r ∈ t) :
    stale r = true ↔ Keyed.key r ∈ deleted := by
  constructor
  · intro hstale
    exact (h.account r hr hr hstale).resolve_right List.not_mem_nil
  · intro hdel
    obtain ⟨s, hs, hkey, hstale⟩ := h.taken _ hdel
    exact Table.eq_of_key_eq hs hr hkey ▸ hstale

end Takes

theorem delete_congr {ρ : Type} [Keyed ρ String] {t : Table ρ} {p q : ρ → Bool}
    (h : ∀ r ∈ t, p r = q r) : t.delete p = t.delete q := by
  apply Table.ext
  apply List.filter_congr
  intro r hr
  rw [h r hr]

/-- A transaction whose deletes took exactly the stale rows, and which has
inserted every derived row, is one serial recompute. -/
theorem view_eq_recomputeStates
    (hstates : Takes db.machineStates db.machineStates (staleState wc c.bound)
      w.deletedStates [])
    (hdowntime : Takes db.downtimeEvents db.downtimeEvents (staleDowntime wc c.bound)
      w.deletedDowntime [])
    (hnew : w.states = newStates db wc c.start c.finish c.ids)
    (hnew' : w.downtime = newDowntime db wc c.start c.finish c.ids)
    (hview : w.view db wc = .ok db') :
    ∃ n, recomputeStates db wc c.start c.finish c.ids = .ok (db', n) := by
  have hm : db.machineStates.delete (fun r => r.id ∈ w.deletedStates) =
      db.machineStates.delete (staleState wc ⟨toSql c.start, toSql c.finish⟩) :=
    delete_congr fun r hr => by
      rw [Bool.eq_iff_iff, decide_eq_true_eq]
      exact (hstates.exact hr).symm
  have hd : db.downtimeEvents.delete (fun r => r.id ∈ w.deletedDowntime) =
      db.downtimeEvents.delete (staleDowntime wc ⟨toSql c.start, toSql c.finish⟩) :=
    delete_congr fun r hr => by
      rw [Bool.eq_iff_iff, decide_eq_true_eq]
      exact (hdowntime.exact hr).symm
  obtain ⟨m, d, hmm, hdd, rfl⟩ := Writes.view_ok hview
  rw [hm, hnew] at hmm
  rw [hd, hnew'] at hdd
  rw [recomputeStates_eq, hmm, hdd]
  exact ⟨_, rfl⟩

theorem DerivedOnly.fetchCyclePulses (h : DerivedOnly D db) (start finish : Int) :
    fetchCyclePulses db wc start finish = Db.fetchCyclePulses D wc start finish := by
  rw [h]
  rfl

theorem DerivedOnly.fetchPlannedIntervals (h : DerivedOnly D db) (start finish : Int) :
    fetchPlannedIntervals db wc start finish = Db.fetchPlannedIntervals D wc start finish := by
  rw [h]
  rfl

theorem DerivedOnly.newRows (h : DerivedOnly D db) (wc : String) (start finish : Int)
    (ids : ℕ → String) :
    newStates db wc start finish ids = newStates D wc start finish ids ∧
      newDowntime db wc start finish ids = newDowntime D wc start finish ids := by
  rw [h]
  exact ⟨rfl, rfl⟩

end Rows

section Advance

variable {wc : String} {c : Call} {db D : Database} {other ph : Phase}

/-- What a call has read and inserted is what the stored pulses and stops yield. -/
def Progress (D : Database) (wc : String) (c : Call) : Phase → Prop
  | .fetchPlanned pulses => pulses = fetchCyclePulses D wc c.start c.finish
  | .ready states downtime =>
      states = newStates D wc c.start c.finish c.ids ∧
        downtime = newDowntime D wc c.start c.finish c.ids
  | .deleteStates _ w states downtime =>
      w.states = [] ∧ w.downtime = [] ∧ states = newStates D wc c.start c.finish c.ids ∧
        downtime = newDowntime D wc c.start c.finish c.ids
  | .insertStates w states downtime =>
      w.states ++ states = newStates D wc c.start c.finish c.ids ∧ w.downtime = [] ∧
        downtime = newDowntime D wc c.start c.finish c.ids
  | .deleteDowntime _ w downtime =>
      w.states = newStates D wc c.start c.finish c.ids ∧ w.downtime = [] ∧
        downtime = newDowntime D wc c.start c.finish c.ids
  | .insertDowntime w downtime =>
      w.states = newStates D wc c.start c.finish c.ids ∧
        w.downtime ++ downtime = newDowntime D wc c.start c.finish c.ids
  | _ => True

/-- The first delete of the open transaction takes the stale states of the tables `base`. -/
def ExactStates (base db : Database) (wc : String) (window : Span Int) : Phase → Prop
  | .deleteStates scan w _ _ =>
      Takes base.machineStates db.machineStates (staleState wc window) w.deletedStates scan
  | .insertStates w _ _ =>
      Takes base.machineStates db.machineStates (staleState wc window) w.deletedStates []
  | .deleteDowntime _ w _ =>
      Takes base.machineStates db.machineStates (staleState wc window) w.deletedStates []
  | .insertDowntime w _ =>
      Takes base.machineStates db.machineStates (staleState wc window) w.deletedStates []
  | _ => True

/-- The second delete takes the stale downtime of the tables as they are. -/
def ExactDowntime (db : Database) (wc : String) (window : Span Int) : Phase → Prop
  | .deleteStates _ w _ _ => w.deletedDowntime = []
  | .insertStates w _ _ => w.deletedDowntime = []
  | .deleteDowntime scan w _ =>
      Takes db.downtimeEvents db.downtimeEvents (staleDowntime wc window) w.deletedDowntime scan
  | .insertDowntime w _ =>
      Takes db.downtimeEvents db.downtimeEvents (staleDowntime wc window) w.deletedDowntime []
  | _ => True

/-- Only the commit changes the database. -/
theorem advance_cases (wc : String) (c : Call) (db : Database) (other ph : Phase) :
    ((advance wc c db other ph).1 = db ∧
      ((advance wc c db other ph).2 = .committed ↔ ph = .committed)) ∨
    ∃ w, ph = .insertDowntime w [] ∧ w.view db wc = .ok (advance wc c db other ph).1 ∧
      (advance wc c db other ph).2 = .committed := by
  cases ph with
  | deleteStates scan w states downtime =>
      cases scan with
      | nil => simp [advance]
      | cons r scan => simp only [advance]; split <;> [skip; split] <;> simp
  | insertStates w states downtime =>
      cases states with
      | nil => simp [advance]
      | cons r states => simp only [advance]; split <;> simp
  | deleteDowntime scan w downtime =>
      cases scan with
      | nil => simp [advance]
      | cons r scan => simp only [advance]; split <;> [skip; split] <;> simp
  | insertDowntime w downtime =>
      cases downtime with
      | nil => simp only [advance]; split <;> simp_all
      | cons r downtime => simp only [advance]; split <;> simp
  | _ => simp [advance]

theorem progress_advance (other : Phase) (hframe : DerivedOnly D db) (h : Progress D wc c ph) :
    Progress D wc c (advance wc c db other ph).2 := by
  cases ph with
  | fetchPulses => exact hframe.fetchCyclePulses c.start c.finish
  | fetchPlanned pulses =>
      have hrows := rowsFor_computedStates D wc c.start c.finish c.ids
      simp only [computedStates] at hrows
      simp only [Progress] at h
      simp only [advance, Progress, h, hframe.fetchPlannedIntervals, hrows, and_self]
  | ready states downtime => exact ⟨rfl, rfl, h⟩
  | deleteStates scan w states downtime =>
      cases scan with
      | nil =>
          obtain ⟨hw, hw', hs, hd⟩ := h
          refine ⟨?_, hw', hd⟩
          rw [hw, hs, List.nil_append]
      | cons r scan => simp only [advance]; split <;> [exact h; split <;> exact h]
  | insertStates w states downtime =>
      cases states with
      | nil =>
          obtain ⟨hs, hw', hd⟩ := h
          rw [List.append_nil] at hs
          exact ⟨hs, hw', hd⟩
      | cons r states =>
          simp only [advance]
          split
          · trivial
          · obtain ⟨hs, hw', hd⟩ := h
            exact ⟨by simpa using hs, hw', hd⟩
  | deleteDowntime scan w downtime =>
      cases scan with
      | nil =>
          obtain ⟨hs, hw', hd⟩ := h
          refine ⟨hs, ?_⟩
          rw [hw', hd, List.nil_append]
      | cons r scan => simp only [advance]; split <;> [exact h; split <;> exact h]
  | insertDowntime w downtime =>
      cases downtime with
      | nil => simp only [advance]; split <;> trivial
      | cons r downtime =>
          simp only [advance]
          split
          · trivial
          · exact ⟨h.1, by simpa using h.2⟩
  | committed => trivial
  | failed e => trivial

/-- The first delete has started, at some time. -/
def Phase.begun : Phase → Bool
  | .fetchPulses => false
  | .fetchPlanned _ => false
  | .ready _ _ => false
  | _ => true

theorem exactStates_advance {base : Database} (other : Phase)
    (hbase : ph.begun = true ∨ base = db) (h : ExactStates base db wc c.bound ph) :
    ExactStates base db wc c.bound (advance wc c db other ph).2 := by
  cases ph with
  | fetchPulses | fetchPlanned | committed | failed => trivial
  | ready states downtime =>
      rcases hbase with hbegun | rfl
      · cases hbegun
      · exact Takes.start _ _
  | deleteStates scan w states downtime =>
      cases scan with
      | nil => exact h
      | cons r scan =>
          simp only [advance]
          split
          · exact h
          · split
            · rename_i hr
              exact h.step.1 hr
            · rename_i hr
              exact h.step.2 hr
  | insertStates w states downtime =>
      cases states with
      | nil => exact h
      | cons r states => simp only [advance]; split <;> [trivial; exact h]
  | deleteDowntime scan w downtime =>
      cases scan with
      | nil => exact h
      | cons r scan => simp only [advance]; split <;> [exact h; split <;> exact h]
  | insertDowntime w downtime =>
      cases downtime with
      | nil => simp only [advance]; split <;> trivial
      | cons r downtime => simp only [advance]; split <;> [trivial; exact h]

theorem exactDowntime_advance (other : Phase) (h : ExactDowntime db wc c.bound ph) :
    ExactDowntime db wc c.bound (advance wc c db other ph).2 := by
  cases ph with
  | fetchPulses | fetchPlanned | committed | failed => trivial
  | ready states downtime => rfl
  | deleteStates scan w states downtime =>
      cases scan with
      | nil => exact h
      | cons r scan => simp only [advance]; split <;> [exact h; split <;> exact h]
  | insertStates w states downtime =>
      cases states with
      | nil =>
          have hstart := Takes.start db.downtimeEvents (staleDowntime wc c.bound)
          rw [← (h : w.deletedDowntime = [])] at hstart
          exact hstart
      | cons r states => simp only [advance]; split <;> [trivial; exact h]
  | deleteDowntime scan w downtime =>
      cases scan with
      | nil => exact h
      | cons r scan =>
          simp only [advance]
          split
          · exact h
          · split
            · rename_i hr
              exact h.step.1 hr
            · rename_i hr
              exact h.step.2 hr
  | insertDowntime w downtime =>
      cases downtime with
      | nil => simp only [advance]; split <;> trivial
      | cons r downtime => simp only [advance]; split <;> [trivial; exact h]

theorem exactStates_of_closed (h : ph.writes? = none) (base db : Database) (wc : String)
    (window : Span Int) : ExactStates base db wc window ph := by
  cases ph <;> trivial

theorem exactDowntime_of_closed (h : ph.writes? = none) (db : Database) (wc : String)
    (window : Span Int) : ExactDowntime db wc window ph := by
  cases ph <;> trivial

/-- A transaction is open after a step only if it was, or if the step was the
start of its first delete. -/
theorem writes?_of_advance (h : (advance wc c db other ph).2.writes? ≠ none) :
    ph.writes? ≠ none ∨ ph.startsDelete = true := by
  cases ph with
  | fetchPulses => exact absurd rfl h
  | fetchPlanned pulses => exact absurd rfl h
  | ready states downtime => exact Or.inr rfl
  | committed => exact absurd rfl h
  | failed e => exact absurd rfl h
  | _ => exact Or.inl (by simp [Phase.writes?])

theorem begun_advance (wc : String) (c : Call) (db : Database) (other : Phase)
    (h : ph.begun = true) : (advance wc c db other ph).2.begun = true := by
  cases ph with
  | fetchPulses => cases h
  | fetchPlanned pulses => cases h
  | ready states downtime => cases h
  | deleteStates scan w states downtime =>
      cases scan with
      | nil => rfl
      | cons r scan => simp only [advance]; split <;> [rfl; split <;> rfl]
  | insertStates w states downtime =>
      cases states with
      | nil => rfl
      | cons r states => simp only [advance]; split <;> rfl
  | deleteDowntime scan w downtime =>
      cases scan with
      | nil => rfl
      | cons r scan => simp only [advance]; split <;> [rfl; split <;> rfl]
  | insertDowntime w downtime =>
      cases downtime with
      | nil => simp only [advance]; split <;> rfl
      | cons r downtime => simp only [advance]; split <;> rfl
  | committed => rfl
  | failed e => rfl

end Advance

section Runs

variable {wc : String} {calls : Bool → Call} {D : Database} {s : Pair}

/-- The serial recompute of one of the calls. -/
def Recomputed (wc : String) (c : Call) (db db' : Database) : Prop :=
  ∃ n, recomputeStates db wc c.start c.finish c.ids = .ok (db', n)

/-- The committed database is what the committed calls make of it one after the
other. -/
def Serialized (wc : String) (calls : Bool → Call) (D : Database) (s : Pair) : Prop :=
  (s.db = D ∧ ∀ i, s.phase i ≠ .committed) ∨
  (∃ i, Recomputed wc (calls i) D s.db ∧ s.phase i = .committed ∧
    s.phase (!i) ≠ .committed) ∨
  ∃ i mid, Recomputed wc (calls i) D mid ∧ Recomputed wc (calls !i) mid s.db ∧
    ∀ j, s.phase j = .committed

theorem Serialized.congr {s' : Pair} (h : Serialized wc calls D s) (hdb : s'.db = s.db)
    (hphase : ∀ i, s'.phase i = .committed ↔ s.phase i = .committed) :
    Serialized wc calls D s' := by
  unfold Serialized
  simp only [hdb, ne_eq, hphase]
  exact h

/-- A run in which no delete started too early: at most one transaction is open,
and it deletes from the tables as they are. -/
structure Serial (wc : String) (calls : Bool → Call) (D : Database) (s : Pair) : Prop where
  frame : DerivedOnly D s.db
  progress : ∀ i, Progress D wc (calls i) (s.phase i)
  states : ∀ i, ExactStates s.db s.db wc (calls i).bound (s.phase i)
  downtime : ∀ i, ExactDowntime s.db wc (calls i).bound (s.phase i)
  alone : ∀ i, (s.phase i).writes? ≠ none → (s.phase !i).writes? = none
  serialized : Serialized wc calls D s

theorem serial_initial (wc : String) (calls : Bool → Call) (D : Database) :
    Serial wc calls D (initial D) where
  frame := rfl
  progress _ := trivial
  states _ := trivial
  downtime _ := trivial
  alone _ h := absurd rfl h
  serialized := Or.inl ⟨rfl, fun _ h => nomatch h⟩

theorem bool_cases {p : Bool → Prop} (who : Bool) (hself : p who) (hother : p !who) :
    ∀ i, p i := by
  intro i
  by_cases hi : i = who
  · exact hi ▸ hself
  · exact (Bool.eq_not.mpr hi) ▸ hother

@[simp] theorem update_not {β : Type*} (f : Bool → β) (who : Bool) (b : β) :
    Function.update f who b (!who) = f !who :=
  Function.update_of_ne (Bool.not_ne_self who) b f

/-- What one step of a call does to the pair. -/
theorem step_advance (wc : String) (calls : Bool → Call) (s : Pair) (who : Bool) :
    (step wc calls s (.advance who)).db =
        (advance wc (calls who) s.db (s.phase !who) (s.phase who)).1 ∧
      (step wc calls s (.advance who)).phase who =
        (advance wc (calls who) s.db (s.phase !who) (s.phase who)).2 ∧
      (step wc calls s (.advance who)).phase (!who) = s.phase !who := by
  simp [step]

/-- An abort does nothing, or ends a call that has not committed. -/
theorem step_abort (wc : String) (calls : Bool → Call) (s : Pair) (who : Bool) :
    step wc calls s (.abort who) = s ∨
      s.phase who ≠ .committed ∧ (step wc calls s (.abort who)).db = s.db ∧
        (step wc calls s (.abort who)).phase (!who) = s.phase !who ∧
        (step wc calls s (.abort who)).phase who = .failed (.db (.other "closed")) := by
  simp only [step]
  split
  · exact Or.inl rfl
  · rename_i h
    exact Or.inr (by simp [h])

/-- What a serial run asks of one call. -/
structure InPlace (wc : String) (c : Call) (D db : Database) (ph : Phase) : Prop where
  progress : Progress D wc c ph
  states : ExactStates db db wc c.bound ph
  downtime : ExactDowntime db wc c.bound ph

/-- A call without an open transaction is in place whatever is committed. -/
theorem InPlace.of_closed {c : Call} {ph : Phase} (hprogress : Progress D wc c ph)
    (hclosed : ph.writes? = none) (db : Database) : InPlace wc c D db ph where
  progress := hprogress
  states := exactStates_of_closed hclosed db db wc c.bound
  downtime := exactDowntime_of_closed hclosed db wc c.bound

theorem Serial.inPlace (h : Serial wc calls D s) (i : Bool) :
    InPlace wc (calls i) D s.db (s.phase i) :=
  ⟨h.progress i, h.states i, h.downtime i⟩

theorem Serial.of_inPlace (who : Bool) (hframe : DerivedOnly D s.db)
    (hself : InPlace wc (calls who) D s.db (s.phase who))
    (hother : InPlace wc (calls !who) D s.db (s.phase !who))
    (halone : (s.phase who).writes? = none ∨ (s.phase !who).writes? = none)
    (hserialized : Serialized wc calls D s) : Serial wc calls D s where
  frame := hframe
  progress := bool_cases who hself.progress hother.progress
  states := bool_cases who hself.states hother.states
  downtime := bool_cases who hself.downtime hother.downtime
  alone := by
    refine bool_cases who ?_ ?_
    · exact fun hopen => halone.resolve_left hopen
    · intro hopen
      rw [Bool.not_not]
      exact halone.resolve_right hopen
  serialized := hserialized

theorem serial_abort (h : Serial wc calls D s) (who : Bool) :
    Serial wc calls D (step wc calls s (.abort who)) := by
  rcases step_abort wc calls s who with hsame | ⟨hne, hdb, hother, hself⟩
  · rw [hsame]
    exact h
  · apply Serial.of_inPlace who
    · rw [hdb]
      exact h.frame
    · rw [hself]
      apply InPlace.of_closed
      · trivial
      · rfl
    · rw [hdb, hother]
      exact h.inPlace !who
    · rw [hself]
      exact Or.inl rfl
    · apply h.serialized.congr hdb
      refine bool_cases who ?_ (by rw [hother])
      rw [hself]
      constructor
      · intro hc
        cases hc
      · exact fun hc => absurd hc hne

/-- A statement of the transaction in its turn, before the commit. -/
theorem serial_write (h : Serial wc calls D s) {who : Bool} (ha : Exclusive s (.advance who))
    (hsame : (advance wc (calls who) s.db (s.phase !who) (s.phase who)).1 = s.db)
    (hcommit : (advance wc (calls who) s.db (s.phase !who) (s.phase who)).2 = .committed ↔
      s.phase who = .committed) :
    Serial wc calls D (step wc calls s (.advance who)) := by
  obtain ⟨hdb, hself, hother⟩ := step_advance wc calls s who
  rw [hsame] at hdb
  apply Serial.of_inPlace who
  · rw [hdb]
    exact h.frame
  · rw [hdb, hself]
    exact ⟨progress_advance (s.phase !who) h.frame (h.progress who),
      exactStates_advance (s.phase !who) (Or.inr rfl) (h.states who),
      exactDowntime_advance (s.phase !who) (h.downtime who)⟩
  · rw [hdb, hother]
    exact h.inPlace !who
  · rw [hself, hother]
    -- whoever steps into or stays in a transaction is alone in one
    by_cases hopen : (advance wc (calls who) s.db (s.phase !who) (s.phase who)).2.writes? = none
    · exact Or.inl hopen
    · rcases writes?_of_advance hopen with hopen | hstart
      · exact Or.inr (h.alone who hopen)
      · exact Or.inr (ha hstart)
  · exact h.serialized.congr hdb (bool_cases who (by rw [hself, hcommit]) (by rw [hother]))

/-- The call that commits is the first or the second of the serial order. -/
theorem Serialized.commit {s' : Pair} {who : Bool} (h : Serialized wc calls D s)
    (hne : s.phase who ≠ .committed) (hrecomputed : Recomputed wc (calls who) s.db s'.db)
    (hself : s'.phase who = .committed) (hother : s'.phase (!who) = s.phase !who) :
    Serialized wc calls D s' := by
  rcases h with ⟨hD, hnone⟩ | ⟨i, hfirst, hi, -⟩ | ⟨i, mid, -, -, hboth⟩
  · refine Or.inr (Or.inl ⟨who, hD ▸ hrecomputed, hself, ?_⟩)
    rw [hother]
    exact hnone !who
  · have hiwho : who = !i := Bool.eq_not.mpr fun heq => hne (heq ▸ hi)
    refine Or.inr (Or.inr ⟨i, s.db, hfirst, hiwho ▸ hrecomputed, bool_cases who hself ?_⟩)
    rw [hother, hiwho, Bool.not_not]
    exact hi
  · exact absurd (hboth who) hne

/-- The commit of a transaction: the other call has none open. -/
theorem serial_commit (h : Serial wc calls D s) {who : Bool} {w : Writes}
    (hph : s.phase who = .insertDowntime w [])
    (hview : w.view s.db wc =
      .ok (advance wc (calls who) s.db (s.phase !who) (s.phase who)).1)
    (hcommit : (advance wc (calls who) s.db (s.phase !who) (s.phase who)).2 = .committed) :
    Serial wc calls D (step wc calls s (.advance who)) := by
  obtain ⟨hdb, hself, hother⟩ := step_advance wc calls s who
  rw [← hdb] at hview
  rw [hcommit] at hself
  have hclosed : (s.phase !who).writes? = none := by
    apply h.alone who
    rw [hph]
    exact Option.some_ne_none w
  have hrecomputed : Recomputed wc (calls who) s.db (step wc calls s (.advance who)).db := by
    have hp := h.progress who
    have hstates := h.states who
    have hdowntime := h.downtime who
    rw [hph] at hp hstates hdowntime
    obtain ⟨hnew, hnew'⟩ := h.frame.newRows wc (calls who).start (calls who).finish
      (calls who).ids
    refine view_eq_recomputeStates hstates hdowntime (hp.1.trans hnew.symm) ?_ hview
    rw [← List.append_nil w.downtime]
    exact hp.2.trans hnew'.symm
  apply Serial.of_inPlace who
  · exact h.frame.of_view hview
  · rw [hself]
    apply InPlace.of_closed
    · trivial
    · rfl
  · rw [hother]
    exact .of_closed (h.progress !who) hclosed _
  · rw [hself]
    exact Or.inl rfl
  · apply h.serialized.commit _ hrecomputed hself hother
    rw [hph]
    intro hc
    cases hc

theorem serial_step (h : Serial wc calls D s) {a : Action} (ha : Exclusive s a) :
    Serial wc calls D (step wc calls s a) := by
  cases a with
  | abort who => exact serial_abort h who
  | advance who =>
      rcases advance_cases wc (calls who) s.db (s.phase !who) (s.phase who) with
        ⟨hsame, hcommit⟩ | ⟨w, hph, hview, hcommit⟩
      · exact serial_write h ha hsame hcommit
      · exact serial_commit h hph hview hcommit

/-- The machine states a call inserts when it starts on `D`. -/
def Call.newStates (c : Call) (D : Database) (wc : String) : List MachineStateRow :=
  Edge.newStates D wc c.start c.finish c.ids

/-- Both transactions started before either ended: each deletes the stale rows that
were there at the outset, so what one has committed stays. -/
structure Racing (wc : String) (calls : Bool → Call) (D : Database) (s : Pair) : Prop where
  frame : DerivedOnly D s.db
  progress : ∀ i, Progress D wc (calls i) (s.phase i)
  begun : ∀ i, (s.phase i).begun = true
  states : ∀ i, ExactStates D s.db wc (calls i).bound (s.phase i)
  kept : ∀ i, s.phase i = .committed → ∀ r ∈ (calls i).newStates D wc, r ∈ s.db.machineStates
  known : ∀ i, s.phase i = .committed → (calls i).newStates D wc ≠ [] →
    (D.workCenters.lookup wc).isSome
  cleared : ∀ i, s.phase i = .committed → ∀ r ∈ D.machineStates,
    staleState wc (calls i).bound r = true → r ∉ s.db.machineStates
  untouched : ∀ r ∈ D.machineStates, (∀ i, staleState wc (calls i).bound r = false) →
    r ∈ s.db.machineStates
  origin : ∀ r ∈ s.db.machineStates, r ∈ D.machineStates ∨ ∃ i, r ∈ (calls i).newStates D wc

theorem id_of_mem_newStates {c : Call} {r : MachineStateRow} (h : r ∈ c.newStates D wc) :
    ∃ k, r.id = c.ids k := by
  obtain ⟨i, hi, rfl⟩ := List.mem_mapIdx.mp h
  exact ⟨_, rfl⟩

/-- A new row is none of those that were there at the outset. -/
theorem ne_of_mem_newStates {c : Call} (hids : NewIds D c.ids) {r o : MachineStateRow}
    (h : r ∈ c.newStates D wc) (ho : o ∈ D.machineStates) : o.id ≠ r.id := by
  obtain ⟨k, hk⟩ := id_of_mem_newStates h
  exact fun heq => hids.states k o ho (heq.trans hk)

/-- A step that leaves the tables alone and commits nothing. -/
theorem Racing.congr {s' : Pair} (h : Racing wc calls D s) (hdb : s'.db = s.db)
    (hprogress : ∀ i, Progress D wc (calls i) (s'.phase i))
    (hbegun : ∀ i, (s'.phase i).begun = true)
    (hstates : ∀ i, ExactStates D s.db wc (calls i).bound (s'.phase i))
    (hcommitted : ∀ i, s'.phase i = .committed → s.phase i = .committed) :
    Racing wc calls D s' where
  frame := hdb ▸ h.frame
  progress := hprogress
  begun := hbegun
  states := hdb ▸ hstates
  kept := fun i hi => hdb ▸ h.kept i (hcommitted i hi)
  known := fun i hi => h.known i (hcommitted i hi)
  cleared := fun i hi => hdb ▸ h.cleared i (hcommitted i hi)
  untouched := hdb ▸ h.untouched
  origin := hdb ▸ h.origin

/-- A commit adds the new rows of its call and deletes the stale rows of the outset. -/
theorem racing_commit (hids : ∀ i, NewIds D (calls i).ids) (h : Racing wc calls D s) {who : Bool}
    {w : Writes} (hph : s.phase who = .insertDowntime w [])
    (hview : w.view s.db wc =
      .ok (advance wc (calls who) s.db (s.phase !who) (s.phase who)).1)
    (hcommit : (advance wc (calls who) s.db (s.phase !who) (s.phase who)).2 = .committed) :
    Racing wc calls D (step wc calls s (.advance who)) := by
  obtain ⟨hdb, hself, hother⟩ := step_advance wc calls s who
  rw [hcommit] at hself
  rw [← hdb] at hview
  have hmem (r : MachineStateRow) := mem_machineStates_of_view (r := r) hview
  have htakes := h.states who
  have hnew : w.states = (calls who).newStates D wc := by
    have hp := h.progress who
    rw [hph] at hp
    exact hp.1
  rw [hph] at htakes
  rw [hnew] at hmem
  -- what stands of the outset stood before the commit
  have hbefore : ∀ r ∈ D.machineStates, r ∈ (step wc calls s (.advance who)).db.machineStates →
      r ∈ s.db.machineStates ∧ r.id ∉ w.deletedStates := by
    intro r hr hafter
    rcases (hmem r).mp hafter with hkept | hnewrow
    · exact hkept
    · exact absurd rfl (ne_of_mem_newStates (hids who) hnewrow hr)
  refine ⟨h.frame.of_view hview, bool_cases who ?_ (hother ▸ h.progress !who),
    bool_cases who ?_ (hother ▸ h.begun !who), bool_cases who ?_ ?_, bool_cases who ?_ ?_,
    bool_cases who ?_ ?_, bool_cases who ?_ ?_, ?_, ?_⟩
  · rw [hself]
    trivial
  · rw [hself]
    rfl
  · rw [hself]
    trivial
  · rw [hother]
    have hstates := h.states !who
    cases hphase : s.phase !who with
    | deleteStates | insertStates | deleteDowntime | insertDowntime =>
        rw [hphase] at hstates
        exact hstates.mono fun r hr hafter => (hbefore r hr hafter).1
    | _ => trivial
  · exact fun _ r hr => (hmem r).mpr (Or.inr hr)
  · intro hc r hr
    rw [hother] at hc
    refine (hmem r).mpr (Or.inl ⟨h.kept (!who) hc r hr, ?_⟩)
    intro hdel
    obtain ⟨o, ho, hid, -⟩ := htakes.taken r.id hdel
    exact ne_of_mem_newStates (hids !who) hr ho hid
  · intro _ hne
    obtain ⟨m, d, hm, -, -⟩ := Writes.view_ok hview
    have hknown := (rows_of_insertRows hm).2 (hnew ▸ hne)
    rw [h.frame] at hknown
    exact hknown
  · intro hc
    rw [hother] at hc
    exact h.known (!who) hc
  · intro _ r hr hstale hafter
    obtain ⟨hrdb, hkept⟩ := hbefore r hr hafter
    exact hkept ((htakes.account r hr hrdb hstale).resolve_right List.not_mem_nil)
  · intro hc r hr hstale hafter
    rw [hother] at hc
    exact h.cleared (!who) hc r hr hstale (hbefore r hr hafter).1
  · intro r hr hfresh
    refine (hmem r).mpr (Or.inl ⟨h.untouched r hr hfresh, ?_⟩)
    intro hdel
    obtain ⟨o, ho, hid, hstale⟩ := htakes.taken r.id hdel
    obtain rfl : o = r := Table.eq_of_key_eq ho hr hid
    rw [hfresh who] at hstale
    cases hstale
  · intro r hr
    rcases (hmem r).mp hr with ⟨hr, -⟩ | hr
    · exact h.origin r hr
    · exact Or.inr ⟨who, hr⟩

theorem racing_step (hids : ∀ i, NewIds D (calls i).ids) (h : Racing wc calls D s)
    (a : Action) : Racing wc calls D (step wc calls s a) := by
  cases a with
  | abort who =>
      rcases step_abort wc calls s who with hsame | ⟨-, hdb, hother, hself⟩
      · rw [hsame]
        exact h
      · refine h.congr hdb (bool_cases who ?_ (hother ▸ h.progress !who))
          (bool_cases who (by rw [hself]; rfl) (hother ▸ h.begun !who))
          (bool_cases who ?_ (hother ▸ h.states !who)) (bool_cases who ?_ ?_)
        · rw [hself]
          trivial
        · rw [hself]
          trivial
        · rw [hself]
          exact nofun
        · rw [hother]
          exact id
  | advance who =>
      rcases advance_cases wc (calls who) s.db (s.phase !who) (s.phase who) with
        ⟨hsame, hcommit⟩ | ⟨w, hph, hview, hcommit⟩
      · obtain ⟨hdb, hself, hother⟩ := step_advance wc calls s who
        rw [hsame] at hdb
        have hprogress := progress_advance (s.phase !who) h.frame (h.progress who)
        have hbegun := begun_advance wc (calls who) s.db (s.phase !who) (h.begun who)
        have hstates := exactStates_advance (s.phase !who) (Or.inl (h.begun who)) (h.states who)
        refine h.congr hdb (bool_cases who (hself ▸ hprogress) (hother ▸ h.progress !who))
          (bool_cases who (hself ▸ hbegun) (hother ▸ h.begun !who))
          (bool_cases who (hself ▸ hstates) (hother ▸ h.states !who)) (bool_cases who ?_ ?_)
        · rw [hself, hcommit]
          exact id
        · rw [hother]
          exact id
      · exact racing_commit hids h hph hview hcommit

/-- The first delete that starts too early puts the two calls in a race. -/
theorem racing_of_not_exclusive (h : Serial wc calls D s) {a : Action}
    (ha : ¬ Exclusive s a) : Racing wc calls D (step wc calls s a) := by
  cases a with
  | abort who => exact absurd trivial ha
  | advance who =>
      simp only [Exclusive, Classical.not_imp] at ha
      obtain ⟨hstart, hopen⟩ := ha
      obtain ⟨hdb, hself, hother⟩ := step_advance wc calls s who
      have hprogress := progress_advance (s.phase !who) h.frame (h.progress who)
      have hstates := exactStates_advance (s.phase !who) (Or.inr rfl) (h.states who)
      cases hph : s.phase who with
      | ready states downtime =>
          -- neither has committed, so both snapshots are of the tables at the outset
          have hnot : s.phase (!who) ≠ .committed := by
            intro hc
            rw [hc] at hopen
            exact hopen rfl
          have hD : s.db = D := by
            rcases h.serialized with ⟨hD, -⟩ | ⟨i, -, hi, -⟩ | ⟨i, mid, -, -, hboth⟩
            · exact hD
            · exfalso
              revert hi
              refine bool_cases (p := fun i => s.phase i ≠ .committed) who ?_ hnot i
              rw [hph]
              exact nofun
            · exact absurd (hboth !who) hnot
          rw [hph] at hdb hself hprogress hstates
          have hbegun : (s.phase !who).begun = true := by
            revert hopen
            cases s.phase !who <;> simp [Phase.writes?, Phase.begun]
          have hdb' : (step wc calls s (.advance who)).db = D := hdb.trans hD
          have hnone : ∀ i, (step wc calls s (.advance who)).phase i ≠ .committed := by
            refine bool_cases who ?_ ?_
            · rw [hself]
              exact nofun
            · rw [hother]
              exact hnot
          have hother' := h.states !who
          rw [hD] at hstates hother'
          refine ⟨hdb ▸ h.frame, bool_cases who (hself ▸ hprogress) (hother ▸ h.progress !who),
            bool_cases who (by rw [hself]; rfl) (hother ▸ hbegun), ?_,
            fun i hi => absurd hi (hnone i), fun i hi => absurd hi (hnone i),
            fun i hi => absurd hi (hnone i), ?_, ?_⟩
          · rw [hdb']
            refine bool_cases who ?_ (hother ▸ hother')
            rw [hself, hD]
            exact hstates
          · rw [hdb']
            exact fun r hr _ => hr
          · rw [hdb']
            exact fun r hr => Or.inl hr
      | _ => rw [hph] at hstart; cases hstart

/-- Either every delete of the run started in its turn, or the calls raced. -/
theorem run_cases (hids : ∀ i, NewIds D (calls i).ids) (h : Serial wc calls D s)
    (run : List Action) :
    Along (step wc calls) Exclusive s run ∧ Serial wc calls D (run.foldl (step wc calls) s) ∨
      ¬ Along (step wc calls) Exclusive s run ∧
        Racing wc calls D (run.foldl (step wc calls) s) := by
  induction run generalizing s with
  | nil => exact Or.inl ⟨trivial, h⟩
  | cons a rest ih =>
      by_cases ha : Exclusive s a
      · rcases ih (serial_step h ha) with ⟨halong, hserial⟩ | ⟨hnot, hracing⟩
        · exact Or.inl ⟨⟨ha, halong⟩, hserial⟩
        · exact Or.inr ⟨fun halong => hnot halong.2, hracing⟩
      · refine Or.inr ⟨fun halong => ha halong.1, ?_⟩
        exact List.foldlRecOn rest (step wc calls) (racing_of_not_exclusive h ha)
          fun s hs a _ => racing_step hids hs a

/-- A window's new rows leave no microsecond of the bound window out. -/
theorem exists_mem_newStates {c : Call} (hc : c.start < c.finish) {m : Int} (hm : m ∈ c.bound)
    (D : Database) (wc : String) : ∃ r ∈ c.newStates D wc, r.workCenterId = wc ∧ m ∈ r.span := by
  obtain ⟨a, b, ⟨-, ha⟩, ⟨-, hb⟩, htiled, -⟩ := computedStates_timeline D wc hc
  obtain ⟨u, hu, hmem⟩ := htiled.exists_mem_map toSql ((toSql_of_edge ha).le.trans hm.1)
    (hm.2.trans_le (toSql_of_edge hb).ge)
  obtain ⟨r, hr, hwc, -, hspan⟩ := exists_newStates c.ids (List.mem_map_of_mem (f := bound) hu)
  exact ⟨r, hr, hwc, hspan ▸ hmem⟩

/-- The new rows of a call lie in its bound window. -/
theorem mem_bound_of_newStates {c : Call} {r : MachineStateRow} (h : r ∈ c.newStates D wc)
    {m : Int} (hm : m ∈ r.span) : r.workCenterId = wc ∧ m ∈ c.bound := by
  obtain ⟨iv, hiv, hwc, -, hspan⟩ := mem_newStates h
  obtain ⟨hlo, -, hhi⟩ := derivedStates_bounds hiv
  rw [hspan] at hm
  have hmhi : m < iv.finish := hm.2
  exact ⟨hwc, hlo.trans hm.1, hmhi.trans_le hhi⟩

theorem nodup_newRows {c : Call} (p : MachineStateRow → Bool) (hids : NewIds D c.ids) :
    ((D.machineStates.delete p).rows ++ c.newStates D wc).Nodup :=
  List.Nodup.of_map Keyed.key
    (nodup_keys_append _ hids.injective keys_newStates hids.states)

theorem length_newStates (c : Call) (D : Database) (wc : String) :
    (c.newStates D wc).length = (computedStates D wc c.start c.finish).length := by
  rw [Call.newStates, Edge.newStates, List.length_mapIdx]

end Runs

/-- No two machine states of the work center share an instant. -/
def StatesDisjoint (db : Database) (wc : String) : Prop :=
  ∀ a ∈ db.machineStates, ∀ b ∈ db.machineStates, a.workCenterId = wc → b.workCenterId = wc →
    a ≠ b → ∀ t, t ∈ a.span → t ∉ b.span

section Both

variable {wc : String} {calls : Bool → Call} {D : Database} {s : Pair}

/-- Calls that have raced leave disjoint states exactly when their bound windows share no
microsecond. -/
theorem Racing.disjoint_iff (h : Racing wc calls D s) (hD : StatesApart D wc)
    (hdistinct : ∀ j k, (calls false).ids j ≠ (calls true).ids k)
    (hwin : ∀ i, (calls i).start < (calls i).finish) (hboth : ∀ i, s.phase i = .committed) :
    StatesDisjoint s.db wc ↔ ¬ ∃ m, m ∈ (calls false).bound ∧ m ∈ (calls true).bound := by
  constructor
  · -- both calls' rows are in the table, and one of each covers the shared microsecond
    rintro hdisjoint ⟨m, hm, hm'⟩
    obtain ⟨a, ha, hwa, hma⟩ := exists_mem_newStates (hwin false) hm D wc
    obtain ⟨b, hb, hwb, hmb⟩ := exists_mem_newStates (hwin true) hm' D wc
    have hne : a ≠ b := by
      rintro rfl
      obtain ⟨j, hj⟩ := id_of_mem_newStates ha
      obtain ⟨k, hk⟩ := id_of_mem_newStates hb
      exact hdistinct j k (hj.symm.trans hk)
    exact hdisjoint a (h.kept false (hboth false) a ha) b (h.kept true (hboth true) b hb) hwa hwb
      hne m hma hmb
  · intro hshare a ha b hb hwa hwb hne m hma hmb
    -- a row of the outset that still stands lies apart from both bound windows
    have hold : ∀ r ∈ s.db.machineStates, r ∈ D.machineStates → r.workCenterId = wc → m ∈ r.span →
        ∀ i, m ∉ (calls i).bound := by
      intro r hr hrD hrwc hmr i
      have hfresh : staleState wc (calls i).bound r ≠ true :=
        fun hstale => h.cleared i (hboth i) r hrD hstale hr
      rw [staleState, ne_eq, decide_eq_true_eq, not_and, Span.not_overlaps_iff] at hfresh
      exact (hfresh hrwc).notMem hmr
    rcases h.origin a ha with haD | ⟨i, hai⟩
    · rcases h.origin b hb with hbD | ⟨j, hbj⟩
      · exact (hD.apart a haD b hbD hwa hwb hne).notMem hma hmb
      · exact hold a ha haD hwa hma j (mem_bound_of_newStates hbj hmb).2
    · have hmi := (mem_bound_of_newStates hai hma).2
      rcases h.origin b hb with hbD | ⟨j, hbj⟩
      · exact hold b hb hbD hwb hmb i hmi
      · have hmj := (mem_bound_of_newStates hbj hmb).2
        by_cases hij : i = j
        · subst hij
          exact (newStates_apart hai hbj hne).notMem hma hmb
        · apply hshare
          cases i <;> cases j
          · exact absurd rfl hij
          · exact ⟨m, hmi, hmj⟩
          · exact ⟨m, hmj, hmi⟩
          · exact absurd rfl hij

/-- Calls of one window have the same ends. -/
theorem ends_of_window (hwindow : (calls false).window = (calls true).window) (i j : Bool) :
    (calls i).start = (calls j).start ∧ (calls i).finish = (calls j).finish := by
  have hstart : (calls false).start = (calls true).start := congrArg Span.lo hwindow
  have hfinish : (calls false).finish = (calls true).finish := congrArg Span.hi hwindow
  cases i <;> cases j <;> simp [hstart, hfinish]

theorem bound_of_window (hwindow : (calls false).window = (calls true).window) (i : Bool) :
    (calls i).bound = (calls false).bound := by
  obtain ⟨hstart, hfinish⟩ := ends_of_window hwindow i false
  rw [Call.bound, Call.bound, hstart, hfinish]

/-- Calls of one window that have raced leave more rows than one of them. -/
theorem Racing.content_ne (h : Racing wc calls D s) (hids : ∀ i, NewIds D (calls i).ids)
    (hdistinct : ∀ j k, (calls false).ids j ≠ (calls true).ids k)
    (hwin : (calls false).start < (calls false).finish)
    (hwindow : (calls false).window = (calls true).window)
    (hboth : ∀ i, s.phase i = .committed) :
    statesContent s.db ≠ statesContent (afterRecompute D wc (calls false).start
      (calls false).finish (calls false).ids) := by
  have hne := computedStates_ne_nil D wc hwin
  obtain ⟨hstart, hfinish⟩ := ends_of_window hwindow false true
  have hlength : ((calls true).newStates D wc).length = ((calls false).newStates D wc).length := by
    rw [length_newStates, length_newStates, hstart, hfinish]
  have hpos : 0 < ((calls false).newStates D wc).length := by
    rw [length_newStates]
    exact List.length_pos_of_ne_nil hne
  obtain ⟨⟨one, n⟩, hone⟩ : ∃ res, recomputeStates D wc (calls false).start
      (calls false).finish (calls false).ids = .ok res :=
    recomputeStates_isOk (hids false)
      (h.known false (hboth false) (List.ne_nil_of_length_pos hpos))
  -- the rows that neither deletes, and those of both calls
  have hsub : ((D.machineStates.delete (staleState wc (calls false).bound)).rows ++
      (calls false).newStates D wc) ++ (calls true).newStates D wc ⊆ s.db.machineStates.rows := by
    intro r hr
    rcases List.mem_append.mp hr with hr | hr
    · rcases List.mem_append.mp hr with hr | hr
      · obtain ⟨hrD, hfresh⟩ := Table.mem_delete.mp hr
        refine h.untouched r hrD fun i => ?_
        rw [bound_of_window hwindow i]
        exact hfresh
      · exact h.kept false (hboth false) r hr
    · exact h.kept true (hboth true) r hr
  have hnodup : (((D.machineStates.delete (staleState wc (calls false).bound)).rows ++
      (calls false).newStates D wc) ++ (calls true).newStates D wc).Nodup := by
    have htwo : ((D.machineStates.delete (staleState wc (calls true).bound)).rows ++
        (calls true).newStates D wc).Nodup := nodup_newRows _ (hids true)
    refine (nodup_newRows _ (hids false)).append htwo.of_append_right ?_
    intro r hr hr'
    rcases List.mem_append.mp hr with hr | hr
    · exact ne_of_mem_newStates (hids true) hr' (Table.mem_delete.mp hr).1 rfl
    · obtain ⟨j, hj⟩ := id_of_mem_newStates hr
      obtain ⟨k, hk⟩ := id_of_mem_newStates hr'
      exact hdistinct j k (hj.symm.trans hk)
  have hle := (hnodup.subperm hsub).length_le
  intro hcontent
  have hlen := congrArg List.length hcontent
  simp only [statesContent, List.length_map, afterRecompute, hone, (recomputeStates_ok hone).1,
    List.length_append] at hlen
  simp only [List.length_append, hlength] at hle
  have hsame : ((calls false).newStates D wc).length = (Edge.newStates D wc (calls false).start
      (calls false).finish (calls false).ids).length := rfl
  have hbound : (D.machineStates.delete (staleState wc (calls false).bound)).rows.length =
      (D.machineStates.delete (staleState wc ⟨toSql (calls false).start,
        toSql (calls false).finish⟩)).rows.length := rfl
  omega

end Both

/-- Serial calls leave disjoint machine states, and over one window the rows of a single call
exactly when its edges are settled. -/
theorem Serial.content_iff (h : Serial wc calls D s) (hapart : StatesApart D wc)
    (hids : ∀ i, NewIds D (calls i).ids) (hboth : ∀ i, s.phase i = .committed) :
    StatesDisjoint s.db wc ∧
        ((calls false).window = (calls true).window → ∀ i,
          statesContent s.db = statesContent
            (afterRecompute D wc (calls i).start (calls i).finish (calls i).ids)) ↔
      ((calls false).window = (calls true).window →
        EdgesSettled D wc (calls false).start (calls false).finish) := by
  obtain ⟨i, mid, ⟨n, hfirst⟩, ⟨n', hsecond⟩⟩ : ∃ i mid, Recomputed wc (calls i) D mid ∧
      Recomputed wc (calls !i) mid s.db := by
    rcases h.serialized with ⟨-, hnone⟩ | ⟨i, -, -, hne⟩ | ⟨i, mid, hfirst, hsecond, -⟩
    · exact absurd (hboth true) (hnone true)
    · exact absurd (hboth !i) hne
    · exact ⟨i, mid, hfirst, hsecond⟩
  have hdisjoint : StatesDisjoint s.db wc := by
    have hapart' := statesApart_recompute (statesApart_recompute hapart hfirst) hsecond
    intro a ha b hb hwa hwb hne t hta
    exact (hapart'.apart a ha b hb hwa hwb hne).notMem hta
  have hmid : mid = afterRecompute D wc (calls i).start (calls i).finish (calls i).ids := by
    simp only [afterRecompute, hfirst]
  constructor
  · rintro ⟨-, hcontent⟩ hwindow
    obtain ⟨hs, hf⟩ := ends_of_window hwindow (!i) i
    obtain ⟨hs', hf'⟩ := ends_of_window hwindow i false
    rw [hs, hf] at hsecond
    have hsettled := edgesSettled_of_content hfirst hsecond (hmid ▸ hcontent hwindow i)
    rwa [hs', hf'] at hsettled
  · intro hsettled
    refine ⟨hdisjoint, fun hwindow j => ?_⟩
    have hsettled := hsettled hwindow
    obtain ⟨hs, hf⟩ := ends_of_window hwindow (!i) i
    obtain ⟨hs', hf'⟩ := ends_of_window hwindow false i
    obtain ⟨hs'', hf''⟩ := ends_of_window hwindow i j
    rw [hs, hf] at hsecond
    rw [hs', hf'] at hsettled
    calc
      statesContent s.db = statesContent mid := (content_of_ok_twice hsettled hfirst hsecond).1
      _ = statesContent
          (afterRecompute D wc (calls j).start (calls j).finish (calls j).ids) := by
        rw [hmid, hs'', hf'']
        exact (content_afterRecompute rfl rfl rfl rfl (hids i) (hids j)).1

/-- Two calls whose windows share an instant, both of which commit, leave
disjoint machine states, and over one window the rows of a single call, exactly
when no first delete started while the other call's transaction was open, or the bound windows
share no microsecond, and when the edges of one common window are settled. -/
theorem concurrent_recompute_iff (db : Database) (ops : List RecomputeOp) (wc : String)
    (calls : Bool → Call) (hids : ∀ i, NewIds (reached db ops) (calls i).ids)
    (hdistinct : ∀ j k, (calls false).ids j ≠ (calls true).ids k)
    (hshare : ∃ t, t ∈ (calls false).window ∧ t ∈ (calls true).window) (run : List Action)
    (hboth : ∀ i,
      (run.foldl (step wc calls) (initial (reached db ops))).phase i = .committed) :
    let D := reached db ops
    let final := (run.foldl (step wc calls) (initial D)).db
    StatesDisjoint final wc ∧
        ((calls false).window = (calls true).window → ∀ i,
          statesContent final = statesContent
            (afterRecompute D wc (calls i).start (calls i).finish (calls i).ids)) ↔
      (Along (step wc calls) Exclusive (initial D) run ∨
          ¬ ∃ m, m ∈ (calls false).bound ∧ m ∈ (calls true).bound) ∧
        ((calls false).window = (calls true).window →
          EdgesSettled D wc (calls false).start (calls false).finish) := by
  intro D final
  have hapart := statesApart_reached db ops wc
  have hwin : ∀ i, (calls i).start < (calls i).finish := by
    obtain ⟨t, ht, ht'⟩ := hshare
    exact fun i => by cases i <;> [exact ht.1.trans_lt ht.2; exact ht'.1.trans_lt ht'.2]
  rcases run_cases hids (serial_initial wc calls D) run with
    ⟨halong, hserial⟩ | ⟨hnot, hracing⟩
  · rw [hserial.content_iff hapart hids hboth]
    exact ⟨fun hsettled => ⟨Or.inl halong, hsettled⟩, And.right⟩
  · have hiff := hracing.disjoint_iff hapart hdistinct hwin hboth
    constructor
    · rintro ⟨hdisjoint, hone⟩
      refine ⟨Or.inr (hiff.mp hdisjoint), fun hwindow => ?_⟩
      exact absurd (hone hwindow false)
        (hracing.content_ne hids hdistinct (hwin false) hwindow hboth)
    · rintro ⟨hrun, hsettled⟩
      have hapartWindows := hrun.resolve_left hnot
      refine ⟨hiff.mpr hapartWindows, fun hwindow => ?_⟩
      -- the one bound window is not empty, so the calls share its first microsecond
      have hmem : toSql (calls false).start ∈ (calls false).bound :=
        ⟨le_rfl, (hsettled hwindow (hwin false)).1⟩
      exact absurd ⟨_, hmem, bound_of_window hwindow true ▸ hmem⟩ hapartWindows

/-- The first hundred seconds of the press, by two callers. -/
def pressCalls : Bool → Call
  | false => ⟨0, 100000000000, letterIds 'a'⟩
  | true => ⟨0, 100000000000, letterIds 'b'⟩

/-- Both callers start their first delete before either commits. -/
def pressRace : List Action :=
  List.replicate 3 (.advance false) ++ List.replicate 3 (.advance true) ++
    List.replicate 9 (.advance false) ++ List.replicate 9 (.advance true)

/-- The race stores every interval of the press twice. -/
theorem pressRace_overlaps :
    let final := pressRace.foldl (step "press" pressCalls) (initial (reached pressFloor []))
    (∀ i, final.phase i = .committed) ∧ ¬ StatesDisjoint final.db "press" ∧
      ∀ i, statesContent final.db ≠ statesContent (afterRecompute (reached pressFloor []) "press"
        (pressCalls i).start (pressCalls i).finish (pressCalls i).ids) := by
  refine ⟨by decide +kernel, ?_, by decide +kernel⟩
  intro hdisjoint
  exact hdisjoint ⟨"aa", "press", "running", 0, 10000000⟩ (by decide +kernel)
    ⟨"bb", "press", "running", 0, 10000000⟩ (by decide +kernel) rfl rfl (by decide) 0
    (by decide) (by decide)

/-- The second caller starts its first delete after the first has committed. -/
def pressTurns : List Action :=
  List.replicate 2 (.advance true) ++ List.replicate 12 (.advance false) ++
    List.replicate 14 (.advance true)

theorem newIds_pressFloor (letter : Char) : NewIds (reached pressFloor []) (letterIds letter) :=
  newIds_letterIds nofun nofun

theorem concurrent_recompute_pressTurns :
    let final := (pressTurns.foldl (step "press" pressCalls) (initial (reached pressFloor []))).db
    final.machineStates.rows.length = 2 ∧ StatesDisjoint final "press" := by
  refine ⟨by decide +kernel, ?_⟩
  have halong : Along (step "press" pressCalls) Exclusive (initial (reached pressFloor []))
      pressTurns := by decide +kernel
  refine ((concurrent_recompute_iff pressFloor [] "press" pressCalls ?_ ?_ ?_ pressTurns
    (by decide +kernel)).mpr ⟨Or.inl halong, fun _ => by decide +kernel⟩).1
  · intro i
    cases i
    · exact newIds_pressFloor 'a'
    · exact newIds_pressFloor 'b'
  · intro j k h
    have hmem : 'a' ∈ (letterIds 'b' k).toList := by
      rw [← show letterIds 'a' j = letterIds 'b' k from h]
      simp [letterIds]
    simp [letterIds] at hmem
  · exact ⟨0, by decide, by decide⟩

end ElectronixMes.Derived.Concurrent
