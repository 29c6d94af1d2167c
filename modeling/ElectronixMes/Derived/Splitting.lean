import ElectronixMes.Db.RepoOrders
import ElectronixMes.Db.RepoIngest
import ElectronixMes.Timeline.Pieces
import ElectronixMes.Transition.Sessions

/-!
# Concurrent splits

A split reads its event without a lock, shrinks it, which locks it, and inserts
the rest up to the end that it has read. Splits of all events are interleaved
under READ COMMITTED, and a connection may be lost at any statement. The events
that come from one stop divide it as long as every split that commits finds the
end it has read and is bound strictly inside the event; the first that does not
leaves an instant in two events, or an empty event.

## Implementation notes

What a transaction has written is local to its session until the commit. `now()`
is the start of the transaction. The stop that each event comes from is kept in
the store for the statements of the results; no statement reads it.
-/

namespace ElectronixMes.Derived.Splitting

open Db Relational Timeline Transition

/-- The committed tables, who holds which event, and the stop each event comes from. -/
structure Store where
  db : Database
  locks : Locks String
  origin : String → String

/-- The clock, a drawn id, and whether the connection is lost instead. -/
structure Input where
  now : Int
  id : String
  lost : Bool := false

/-- What a split is called with. -/
structure Split where
  id : String
  splitAt : Int
  firstReason : Option String
  secondReason : Option String
  classifiedBy : String

/-- The next statement of a split, with the rows it has read and written. -/
inductive Phase where
  | select (sp : Split)
  | update (sp : Split) (now : Int) (old : DowntimeEventRow)
  | insert (sp : Split) (now : Int) (old first : DowntimeEventRow)
  | commit (old first second : DowntimeEventRow)
  | ended (reply : Except RepoError (DowntimeEventRow × DowntimeEventRow))

def failed (st : Store) (e : RepoError) : Store × Phase := (st, .ended (.error e))

/-- A failure after the update gives the event back. -/
def rolledBack (st : Store) (id : String) (e : RepoError) : Store × Phase :=
  failed { st with locks := st.locks.release id } e

/-- One statement of a split whose connection holds. -/
def run (who : ℕ) (input : Input) (st : Store) : Phase → Store × Phase
  | .select sp =>
      match st.db.downtimeEvents.lookup sp.id with
      | none => failed st .notFound
      | some old =>
          if sp.splitAt ≤ ofSql old.startTs ∨ ofSql old.endTs ≤ sp.splitAt then
            failed st (.conflict "split point must lie strictly inside the event")
          else (st, .update sp input.now old)
  | .update sp now old =>
      if st.locks.waits who sp.id then (st, .update sp now old)
      else
        -- the row as it is now: another split may have committed in between
        match st.db.downtimeEvents.lookup sp.id with
        | none => failed st .notFound
        | some current =>
            let first := firstHalf current sp.splitAt sp.firstReason sp.classifiedBy now
            match downtimeRefs st.db (some current) first with
            | .error e => failed st (mapSqlx e)
            | .ok () => ({ st with locks := st.locks.take who sp.id }, .insert sp now old first)
  | .insert sp now old first =>
      let second := secondHalf old input.id sp.splitAt sp.secondReason sp.classifiedBy now
      if (st.db.downtimeEvents.lookup input.id).isSome then
        rolledBack st old.id (mapSqlx (.uniqueViolation "downtime_events_pkey"))
      else
        match downtimeRefs st.db none second with
        | .error e => rolledBack st old.id (mapSqlx e)
        | .ok () => (st, .commit old first second)
  | .commit old first second =>
      match (st.db.downtimeEvents.put first).insert? second with
      | none => rolledBack st old.id (mapSqlx (.uniqueViolation "downtime_events_pkey"))
      | some downtimeEvents =>
          ({ db := { st.db with downtimeEvents }
             locks := st.locks.release old.id
             origin := Function.update st.origin second.id (st.origin old.id) },
            .ended (.ok (first, second)))
  | .ended reply => (st, .ended reply)

/-- What a client sees of a lost connection. -/
def connectionLost : RepoError := .db (.other "connection lost")

/-- A lost connection rolls an open transaction back and gives its event back. -/
def rollback (st : Store) : Phase → Store × Phase
  | .ended reply => (st, .ended reply)
  | .insert _ _ old _ => rolledBack st old.id connectionLost
  | .commit old _ _ => rolledBack st old.id connectionLost
  | _ => failed st connectionLost

def exec (who : ℕ) (input : Input) (st : Store) (ph : Phase) : Store × Phase :=
  if input.lost then rollback st ph else run who input st ph

abbrev State := Sessions Store Phase

def step : State → Move Split Input → State := Sessions.step Phase.select exec

/-- A database without open splits, each of whose events is a stop of its own. -/
def opened (db : Database) : State := ⟨⟨db, .free, id⟩, []⟩

section Alone

/-- The first statements of a split that runs alone. -/
def alone (input : Input) : ℕ → Store × Phase → Store × Phase
  | 0, p => p
  | n + 1, p => alone input n (run 0 input p.1 p.2)

theorem alone_ended (input : Input) (n : ℕ) (st : Store)
    (reply : Except RepoError (DowntimeEventRow × DowntimeEventRow)) :
    alone input n (st, .ended reply) = (st, .ended reply) := by
  induction n with
  | zero => rfl
  | succ n ih => exact ih

variable {db : Database} {old : DowntimeEventRow}

/-- The second half can be inserted exactly when no event has its id. -/
theorem lookup_isSome_iff (hold : old ∈ db.downtimeEvents) {first : DowntimeEventRow}
    (hid : first.id = old.id) (second : DowntimeEventRow) :
    (db.downtimeEvents.lookup second.id).isSome ↔
      (db.downtimeEvents.put first).insert? second = none := by
  rw [Table.insert?_eq_none, Option.isSome_iff_exists]
  constructor
  · rintro ⟨r, hlookup⟩
    obtain ⟨hr, hkey⟩ := Table.lookup_eq_some.mp hlookup
    by_cases hr' : r.id = first.id
    · exact ⟨first, Table.mem_put_self _ _, hr'.symm.trans hkey⟩
    · exact ⟨r, Table.mem_put.mpr (Or.inr ⟨hr, hr'⟩), hkey⟩
  · rintro ⟨r, hr, hkey⟩
    rcases Table.mem_put.mp hr with rfl | ⟨hr, -⟩
    · exact ⟨old, Table.lookup_eq_some.mpr ⟨hold, hid.symm.trans hkey⟩⟩
    · exact ⟨r, Table.lookup_eq_some.mpr ⟨hr, hkey⟩⟩

/-- Alone, the four statements are the function of the repository. -/
theorem alone_split (db : Database) (origin : String → String) (sp : Split) (input : Input) :
    ∃ origin', alone input 4 (⟨db, .free, origin⟩, .select sp) =
      match splitDowntime db sp.id sp.splitAt sp.firstReason sp.secondReason sp.classifiedBy
          input.id input.now with
      | .error e => (⟨db, .free, origin'⟩, .ended (.error e))
      | .ok (db', halves) => (⟨db', .free, origin'⟩, .ended (.ok halves)) := by
  unfold splitDowntime
  rw [alone, run]
  cases hold : db.downtimeEvents.lookup sp.id with
  | none => exact ⟨origin, alone_ended input 3 _ _⟩
  | some old =>
      obtain ⟨hmem, hid⟩ := Table.lookup_eq_some.mp hold
      have hid : old.id = sp.id := hid
      dsimp only
      by_cases hinside : sp.splitAt ≤ ofSql old.startTs ∨ ofSql old.endTs ≤ sp.splitAt
      · rw [if_pos hinside, if_pos hinside]
        exact ⟨origin, alone_ended input 3 _ _⟩
      · rw [if_neg hinside, if_neg hinside, alone, run]
        simp only [show Locks.free.waits 0 sp.id = false from rfl, Bool.false_eq_true, if_false,
          hold]
        generalize hfirst :
          firstHalf old sp.splitAt sp.firstReason sp.classifiedBy input.now = first
        have hfirstid : first.id = old.id := by
          rw [← hfirst]
          rfl
        cases downtimeRefs db (some old) first with
        | error e => exact ⟨origin, alone_ended input 2 _ _⟩
        | ok _ =>
            rw [alone, run]
            dsimp only
            generalize hsecond : secondHalf old input.id sp.splitAt sp.secondReason sp.classifiedBy
              input.now = second
            have htaken := lookup_isSome_iff hmem hfirstid second
            rw [show second.id = input.id from hsecond ▸ rfl] at htaken
            cases hins : (db.downtimeEvents.put first).insert? second with
            | none =>
                rw [if_pos (htaken.mpr hins)]
                refine ⟨origin, ?_⟩
                rw [rolledBack, failed, alone_ended, hid, Locks.release_take]
            | some downtimeEvents =>
                rw [if_neg (fun hsome => by simp [htaken.mp hsome] at hins)]
                cases downtimeRefs db none second with
                | error e =>
                    refine ⟨origin, ?_⟩
                    dsimp only
                    rw [rolledBack, failed, alone_ended, hid, Locks.release_take]
                | ok _ =>
                    refine ⟨Function.update origin second.id (origin old.id), ?_⟩
                    rw [alone, run, hins, alone, hid, Locks.release_take]

end Alone

/-- The events that come from a stop. -/
def pieces (st : Store) (stop : DowntimeEventRow) : Set DowntimeEventRow :=
  {r | r ∈ st.db.downtimeEvents ∧ st.origin r.id = stop.id}

theorem mem_pieces {st : Store} {stop r : DowntimeEventRow} :
    r ∈ pieces st stop ↔ r ∈ st.db.downtimeEvents ∧ st.origin r.id = stop.id := Iff.rfl

/-- The events of a stop divide it and are of its work center and state. -/
structure Divided (st : Store) (stop : DowntimeEventRow) : Prop where
  divides : Divides DowntimeEventRow.span stop.startTs stop.endTs (pieces st stop)
  same : ∀ r ∈ pieces st stop, r.workCenterId = stop.workCenterId ∧ r.state = stop.state

/-- Every stop of `db` is divided by the events that come from it. -/
def AllDivided (db : Database) (s : State) : Prop :=
  ∀ stop ∈ db.downtimeEvents, Divided s.store stop

/-- The event ends where the split has read, and the split point is bound strictly inside it. -/
def Inside (old second r : DowntimeEventRow) : Prop :=
  r.endTs = old.endTs ∧ r.startTs < second.startTs ∧ second.startTs < r.endTs

instance (old second r : DowntimeEventRow) : Decidable (Inside old second r) :=
  inferInstanceAs (Decidable
    (r.endTs = old.endTs ∧ r.startTs < second.startTs ∧ second.startTs < r.endTs))

/-- A commit, with its drawn id still free, divides the event that its split has read. -/
def FindsEvent (st : Store) : Phase → Prop
  | .commit old _ second => st.db.downtimeEvents.lookup second.id = none →
      ∀ r ∈ st.db.downtimeEvents.lookup old.id, Inside old second r
  | _ => True

instance (st : Store) : (ph : Phase) → Decidable (FindsEvent st ph)
  | .commit old _ second => inferInstanceAs
      (Decidable (st.db.downtimeEvents.lookup second.id = none →
        ∀ r ∈ st.db.downtimeEvents.lookup old.id, Inside old second r))
  | .select _ => isTrue trivial
  | .update _ _ _ => isTrue trivial
  | .insert _ _ _ _ => isTrue trivial
  | .ended _ => isTrue trivial

/-- The statement that a move runs, unless the connection is lost, finds the event. -/
def EventAsRead (s : State) : Move Split Input → Prop
  | .call _ => True
  | .advance who input => input.lost = false → ∀ ph ∈ s.threads[who]?, FindsEvent s.store ph

instance (s : State) : (m : Move Split Input) → Decidable (EventAsRead s m)
  | .call _ => isTrue trivial
  | .advance who input => inferInstanceAs
      (Decidable (input.lost = false → ∀ ph ∈ s.threads[who]?, FindsEvent s.store ph))

section Sessions

variable {db : Database} {st : Store} {old first second : DowntimeEventRow} {splitAt : Int}

/-- What a split has read is still the event of its stop, but for an end that may have come
earlier. The split point is bound at `splitAt`. -/
structure Reads (db : Database) (st : Store) (old : DowntimeEventRow) (splitAt : Int) : Prop where
  row : ∃ r, st.db.downtimeEvents.lookup old.id = some r ∧ r.startTs = old.startTs ∧
    r.endTs ≤ old.endTs ∧ r.workCenterId = old.workCenterId ∧ r.state = old.state
  within : ∃ stop ∈ db.downtimeEvents, st.origin old.id = stop.id ∧ old.endTs ≤ stop.endTs ∧
    old.workCenterId = stop.workCenterId ∧ old.state = stop.state
  lo : old.startTs ≤ splitAt
  hi : splitAt ≤ old.endTs

/-- The first half as the update has left it. -/
structure IsFirst (old : DowntimeEventRow) (splitAt : Int) (first : DowntimeEventRow) : Prop where
  id : first.id = old.id
  workCenterId : first.workCenterId = old.workCenterId
  state : first.state = old.state
  startTs : first.startTs = old.startTs
  endTs : first.endTs = splitAt

structure IsSecond (old : DowntimeEventRow) (splitAt : Int) (second : DowntimeEventRow) :
    Prop where
  workCenterId : second.workCenterId = old.workCenterId
  state : second.state = old.state
  startTs : second.startTs = splitAt
  endTs : second.endTs = old.endTs

/-- What a split knows before its next statement. -/
def Knows (db : Database) (st : Store) : Phase → Prop
  | .update sp _ old => old.id = sp.id ∧ Reads db st old (toSql sp.splitAt)
  | .insert sp _ old first =>
      Reads db st old (toSql sp.splitAt) ∧ IsFirst old (toSql sp.splitAt) first
  | .commit old first second => ∃ splitAt,
      Reads db st old splitAt ∧ IsFirst old splitAt first ∧ IsSecond old splitAt second
  | _ => True

/-- Every event comes from a stop of `db`. -/
def Rooted (db : Database) (st : Store) : Prop :=
  ∀ r ∈ st.db.downtimeEvents, ∃ stop ∈ db.downtimeEvents, st.origin r.id = stop.id

/-- What the next statement knows depends on the events and their stops. -/
theorem Knows.congr {st' : Store} {ph : Phase} (hdb : st'.db = st.db)
    (horigin : st'.origin = st.origin) (h : Knows db st ph) : Knows db st' ph := by
  obtain ⟨db₁, locks, origin⟩ := st'
  obtain ⟨db₂, locks', origin'⟩ := st
  cases hdb
  cases horigin
  cases ph with
  | select | ended => trivial
  | update sp now old => exact ⟨h.1, ⟨h.2.row, h.2.within, h.2.lo, h.2.hi⟩⟩
  | insert sp now old first => exact ⟨⟨h.1.row, h.1.within, h.1.lo, h.1.hi⟩, h.2⟩
  | commit old first second =>
      obtain ⟨splitAt, hreads, hhalves⟩ := h
      exact ⟨splitAt, ⟨hreads.row, hreads.within, hreads.lo, hreads.hi⟩, hhalves⟩

section Commit

variable {downtimeEvents : Table DowntimeEventRow} {st' : Store} {current stop : DowntimeEventRow}

/-- A commit that puts the halves in the place of an event. -/
structure Commits (st st' : Store) (old first second : DowntimeEventRow) : Prop where
  events : (st.db.downtimeEvents.put first).insert? second = some st'.db.downtimeEvents
  origin : st'.origin = Function.update st.origin second.id (st.origin old.id)

/-- The id of the second half belongs to no event, nor to that of the first half. -/
theorem Commits.ne (h : Commits st st' old first second) {r : DowntimeEventRow}
    (hr : r ∈ st.db.downtimeEvents) : r.id ≠ second.id := by
  by_cases hfirst : r.id = first.id
  · intro heq
    exact Table.key_ne_of_insert? h.events first (Table.mem_put_self _ _) (hfirst.symm.trans heq)
  · exact Table.key_ne_of_insert? h.events r (Table.mem_put.mpr (Or.inr ⟨hr, hfirst⟩))

theorem Commits.mem_pieces (h : Commits st st' old first second) (hid : first.id = old.id)
    (hcurrent : st.db.downtimeEvents.lookup old.id = some current) (r : DowntimeEventRow) :
    r ∈ pieces st' stop ↔ (r = first ∨ r = second) ∧ st.origin old.id = stop.id ∨
      r ∈ pieces st stop ∧ r ≠ current := by
  obtain ⟨hmem, hkey⟩ := Table.lookup_eq_some.mp hcurrent
  have hkey : current.id = old.id := hkey
  have hold : old.id ≠ second.id := hkey ▸ h.ne hmem
  simp only [Splitting.mem_pieces, Table.mem_insert? h.events, Table.mem_put, h.origin]
  constructor
  · rintro ⟨(rfl | ⟨hr, hne⟩) | rfl, horigin⟩
    · rw [hid, Function.update_of_ne hold] at horigin
      exact Or.inl ⟨Or.inl rfl, horigin⟩
    · rw [Function.update_of_ne (h.ne hr)] at horigin
      refine Or.inr ⟨⟨hr, horigin⟩, ?_⟩
      rintro rfl
      exact hne (hkey.trans hid.symm)
    · rw [Function.update_self] at horigin
      exact Or.inl ⟨Or.inr rfl, horigin⟩
  · rintro (⟨rfl | rfl, horigin⟩ | ⟨⟨hr, horigin⟩, hne⟩)
    · refine ⟨Or.inl (Or.inl rfl), ?_⟩
      rw [hid, Function.update_of_ne hold]
      exact horigin
    · refine ⟨Or.inr rfl, ?_⟩
      rw [Function.update_self]
      exact horigin
    · refine ⟨Or.inl (Or.inr ⟨hr, ?_⟩), ?_⟩
      · intro heq
        exact hne (Table.eq_of_key_eq hr hmem (heq.trans (hid.trans hkey.symm)))
      · rw [Function.update_of_ne (h.ne hr)]
        exact horigin

/-- The events of the stop that is split are cut at the split point; the second half reaches to
the end that was read. -/
theorem Commits.cutAt (h : Commits st st' old first second) (hfirst : IsFirst old splitAt first)
    (hsecond : IsSecond old splitAt second) (hreads : Reads db st old splitAt)
    (hcurrent : st.db.downtimeEvents.lookup old.id = some current)
    (horigin : st.origin old.id = stop.id) (hlo : current.startTs < splitAt)
    (hhi : splitAt < old.endTs) :
    CutAt DowntimeEventRow.span (pieces st stop) (pieces st' stop) current first second splitAt
      old.endTs := by
  obtain ⟨hmem, hkey⟩ := Table.lookup_eq_some.mp hcurrent
  have hkey : current.id = old.id := hkey
  obtain ⟨r, hr, hstart, -⟩ := hreads.row
  obtain rfl : r = current := Option.some.inj (hr.symm.trans hcurrent)
  constructor
  · refine ⟨hmem, ?_⟩
    rw [hkey]
    exact horigin
  · intro x
    rw [h.mem_pieces hfirst.id hcurrent]
    simp [horigin, or_assoc]
  · simp [DowntimeEventRow.span, hfirst.startTs, hfirst.endTs, hstart]
  · simp [DowntimeEventRow.span, hsecond.startTs, hsecond.endTs]
  · exact hlo
  · exact hhi

/-- A commit that finds the event it has read keeps every stop divided. -/
theorem Commits.divided (h : Commits st st' old first second) (hfirst : IsFirst old splitAt first)
    (hsecond : IsSecond old splitAt second) (hreads : Reads db st old splitAt)
    (hcurrent : st.db.downtimeEvents.lookup old.id = some current)
    (hinside : Inside old second current) (hstop : Divided st stop) : Divided st' stop := by
  obtain ⟨hend, hlo, hhi⟩ := hinside
  rw [hsecond.startTs] at hlo hhi
  by_cases horigin : st.origin old.id = stop.id
  · have hcut := h.cutAt hfirst hsecond hreads hcurrent horigin hlo (hend ▸ hhi)
    have hold : old.workCenterId = stop.workCenterId ∧ old.state = stop.state := by
      obtain ⟨r, hr, -, -, hwc, hstate⟩ := hreads.row
      obtain rfl : r = current := Option.some.inj (hr.symm.trans hcurrent)
      rw [← hwc, ← hstate]
      exact hstop.same r hcut.mem
    rw [← hend] at hcut
    refine ⟨hstop.divides.cut hcut, ?_⟩
    intro x hx
    rcases (hcut.mem' x).mp hx with rfl | rfl | ⟨hx, -⟩
    · rw [hfirst.workCenterId, hfirst.state]
      exact hold
    · rw [hsecond.workCenterId, hsecond.state]
      exact hold
    · exact hstop.same x hx
  · have hpieces : pieces st' stop = pieces st stop := by
      ext x
      rw [h.mem_pieces hfirst.id hcurrent]
      constructor
      · rintro (⟨-, hx⟩ | ⟨hx, -⟩)
        · exact absurd hx horigin
        · exact hx
      · intro hx
        refine Or.inr ⟨hx, ?_⟩
        rintro rfl
        have hkey : x.id = old.id := (Table.lookup_eq_some.mp hcurrent).2
        exact horigin (hkey ▸ hx.2)
    exact ⟨hpieces ▸ hstop.divides, hpieces ▸ hstop.same⟩

/-- A commit that leaves the stop divided has found the event it has read: an earlier end
leaves an instant in two events, and a split point at an end an empty one. -/
theorem Commits.inside_of_divided (h : Commits st st' old first second)
    (hfirst : IsFirst old splitAt first) (hsecond : IsSecond old splitAt second)
    (hreads : Reads db st old splitAt)
    (hcurrent : st.db.downtimeEvents.lookup old.id = some current) (hstop : Divided st stop)
    (horigin : st.origin old.id = stop.id) (hwithin : old.endTs ≤ stop.endTs)
    (hstop' : Divided st' stop) : Inside old second current := by
  obtain ⟨r, hr, hstart, hle, -⟩ := hreads.row
  obtain rfl : r = current := Option.some.inj (hr.symm.trans hcurrent)
  have hlo : first.startTs < first.endTs := hstop'.divides.proper first
    ((h.mem_pieces hfirst.id hcurrent first).mpr (Or.inl ⟨Or.inl rfl, horigin⟩))
  have hhi : second.startTs < second.endTs := hstop'.divides.proper second
    ((h.mem_pieces hfirst.id hcurrent second).mpr (Or.inl ⟨Or.inr rfl, horigin⟩))
  rw [hfirst.startTs, hfirst.endTs, ← hstart] at hlo
  rw [hsecond.startTs, hsecond.endTs] at hhi
  have hend : r.endTs = old.endTs := by
    by_contra hne
    have hcut := h.cutAt hfirst hsecond hreads hcurrent horigin hlo hhi
    refine hstop.divides.not_cut_beyond hcut ?_ ?_ (lt_of_le_of_ne hle hne) hwithin hstop'.divides
    · by_cases hmem : first ∈ pieces st stop
      · obtain ⟨hcur, hkey⟩ := Table.lookup_eq_some.mp hcurrent
        exact Or.inr (Table.eq_of_key_eq hmem.1 hcur (hfirst.id.trans hkey.symm))
      · exact Or.inl hmem
    · intro hmem
      exact h.ne hmem.1 rfl
  rw [Inside, hsecond.startTs]
  exact ⟨hend, hlo, hend ▸ hhi⟩

theorem Commits.rooted (h : Commits st st' old first second) (hfirst : IsFirst old splitAt first)
    (hreads : Reads db st old splitAt) (hrooted : Rooted db st) : Rooted db st' := by
  obtain ⟨current, hcurrent, -⟩ := hreads.row
  obtain ⟨stop, hstop, horigin, -⟩ := hreads.within
  intro r hr
  by_cases hnew : r = first ∨ r = second
  · exact ⟨stop, hstop, ((h.mem_pieces hfirst.id hcurrent r).mpr (Or.inl ⟨hnew, horigin⟩)).2⟩
  · have hrest : r ∈ st.db.downtimeEvents ∧ r.id ≠ first.id := by
      rw [Table.mem_insert? h.events, Table.mem_put] at hr
      tauto
    obtain ⟨stop', hstop', horigin'⟩ := hrooted r hrest.1
    refine ⟨stop', hstop', ?_⟩
    rw [h.origin, Function.update_of_ne (h.ne hrest.1)]
    exact horigin'

/-- A commit that finds the end it has read leaves what the others have read. -/
theorem Commits.reads (h : Commits st st' old first second) (hfirst : IsFirst old splitAt first)
    (hreads : Reads db st old splitAt)
    (hcurrent : st.db.downtimeEvents.lookup old.id = some current)
    (hend : current.endTs = old.endTs) {old' : DowntimeEventRow} {splitAt' : Int}
    (hother : Reads db st old' splitAt') : Reads db st' old' splitAt' := by
  obtain ⟨r, hr, hstart, hle, hwc, hstate⟩ := hother.row
  obtain ⟨hmem, hkey⟩ := Table.lookup_eq_some.mp hr
  have hne : old'.id ≠ second.id := by
    rw [← show r.id = old'.id from hkey]
    exact h.ne hmem
  refine ⟨?_, ?_, hother.lo, hother.hi⟩
  · have hlookup : st'.db.downtimeEvents.lookup old'.id =
        (st.db.downtimeEvents.put first).lookup old'.id := by
      rw [Table.lookup_insert? h.events]
      exact if_neg hne
    rw [hlookup]
    by_cases hid : old'.id = first.id
    · rw [hid, hfirst.id, hcurrent, Option.some.injEq] at hr
      subst hr
      obtain ⟨r, hr, hstart', -, hwc', hstate'⟩ := hreads.row
      obtain rfl : r = current := Option.some.inj (hr.symm.trans hcurrent)
      refine ⟨first, hid ▸ Table.lookup_put_self _ _, ?_, ?_, ?_, ?_⟩
      · rw [hfirst.startTs, ← hstart', hstart]
      · -- the end has moved to the split point, which lies before the end that was read
        have hhi := hreads.hi
        rw [hfirst.endTs]
        omega
      · rw [hfirst.workCenterId, ← hwc', hwc]
      · rw [hfirst.state, ← hstate', hstate]
    · rw [Table.lookup_put_of_ne hid]
      exact ⟨r, hr, hstart, hle, hwc, hstate⟩
  · obtain ⟨stop, hstop, horigin, hwithin⟩ := hother.within
    refine ⟨stop, hstop, ?_, hwithin⟩
    rw [h.origin, Function.update_of_ne hne]
    exact horigin

end Commit

section Statement

variable {who : ℕ} {input : Input} {ph : Phase}

/-- The events and their stops are as before, and the split knows what it needs. -/
structure Quiet (db : Database) (st : Store) (res : Store × Phase) : Prop where
  events : res.1.db = st.db
  stops : res.1.origin = st.origin
  knows : Knows db res.1 res.2

theorem quiet_ended (locks : Locks String)
    (reply : Except RepoError (DowntimeEventRow × DowntimeEventRow)) :
    Quiet db st ({ st with locks }, .ended reply) := ⟨rfl, rfl, trivial⟩

/-- An event as it stands is what a split reads. -/
theorem reads_of_lookup (hdivided : ∀ stop ∈ db.downtimeEvents, Divided st stop)
    (hrooted : Rooted db st) (hold : st.db.downtimeEvents.lookup old.id = some old)
    (hlo : old.startTs ≤ splitAt) (hhi : splitAt ≤ old.endTs) : Reads db st old splitAt := by
  obtain ⟨hmem, -⟩ := Table.lookup_eq_some.mp hold
  obtain ⟨stop, hstop, horigin⟩ := hrooted old hmem
  have hpiece : old ∈ pieces st stop := ⟨hmem, horigin⟩
  obtain ⟨hwc, hstate⟩ := (hdivided stop hstop).same old hpiece
  have hwithin : old.endTs ≤ stop.endTs := ((hdivided stop hstop).divides.bounds hpiece).2
  exact ⟨⟨old, hold, rfl, le_rfl, rfl, rfl⟩, ⟨stop, hstop, horigin, hwithin, hwc, hstate⟩, hlo, hhi⟩

theorem quiet_rollback (ph : Phase) : Quiet db st (rollback st ph) := by
  cases ph with
  | select | update | ended => exact ⟨rfl, rfl, trivial⟩
  | insert | commit => exact quiet_ended _ _

/-- A statement is quiet, or it is a commit that goes through. -/
theorem run_cases (hdivided : ∀ stop ∈ db.downtimeEvents, Divided st stop)
    (hrooted : Rooted db st) (hknows : Knows db st ph) :
    Quiet db st (run who input st ph) ∨ ∃ old first second, ph = .commit old first second ∧
      Commits st (run who input st ph).1 old first second ∧
      (run who input st ph).2 = .ended (.ok (first, second)) := by
  cases ph with
  | select sp =>
      left
      simp only [run]
      cases hold : st.db.downtimeEvents.lookup sp.id with
      | none => exact quiet_ended _ _
      | some old =>
          have hid : old.id = sp.id := (Table.lookup_eq_some.mp hold).2
          dsimp only
          split
          · exact quiet_ended _ _
          · rename_i hinside
            obtain ⟨hlo, hhi, -⟩ := toSql_inside hinside
            rw [← hid] at hold
            exact ⟨rfl, rfl, hid, reads_of_lookup hdivided hrooted hold hlo hhi⟩
  | update sp now old =>
      left
      obtain ⟨hid, hreads⟩ := hknows
      simp only [run]
      split
      · exact ⟨rfl, rfl, hid, hreads⟩
      · obtain ⟨r, hr, hstart, -, hwc, hstate⟩ := hreads.row
        rw [hid] at hr
        have hrid : r.id = sp.id := (Table.lookup_eq_some.mp hr).2
        simp only [hr]
        split
        · exact quiet_ended _ _
        · refine ⟨rfl, rfl, ⟨hreads.row, hreads.within, hreads.lo, hreads.hi⟩, ?_⟩
          exact ⟨hrid.trans hid.symm, hwc, hstate, hstart, rfl⟩
  | insert sp now old first =>
      left
      obtain ⟨hreads, hfirst⟩ := hknows
      simp only [run]
      split
      · exact quiet_ended _ _
      · split
        · exact quiet_ended _ _
        · exact ⟨rfl, rfl, toSql sp.splitAt, hreads, hfirst, rfl, rfl, rfl, rfl⟩
  | commit old first second =>
      simp only [run]
      cases hins : (st.db.downtimeEvents.put first).insert? second with
      | none => exact Or.inl (quiet_ended _ _)
      | some downtimeEvents => exact Or.inr ⟨old, first, second, rfl, ⟨hins, rfl⟩, rfl⟩
  | ended reply => exact Or.inl ⟨rfl, rfl, trivial⟩

end Statement

section Moves

variable {s : State} {m : Move Split Input}

/-- The stops are divided, the events rooted in them, and every split knows what it needs. -/
def Sound (db : Database) : State → Prop :=
  Sessions.Inv (fun st => (∀ stop ∈ db.downtimeEvents, Divided st stop) ∧ Rooted db st)
    fun st _ ph => Knows db st ph

/-- A commit that finds the end it has read leaves what every other split knows. -/
theorem Knows.commits {st' : Store} {ph : Phase} (hcommits : Commits st st' old first second)
    (hfirst : IsFirst old splitAt first) (hreads : Reads db st old splitAt)
    {current : DowntimeEventRow} (hcurrent : st.db.downtimeEvents.lookup old.id = some current)
    (hend : current.endTs = old.endTs) (h : Knows db st ph) : Knows db st' ph := by
  cases ph with
  | select | ended => trivial
  | update sp now old' => exact ⟨h.1, hcommits.reads hfirst hreads hcurrent hend h.2⟩
  | insert sp now old' first' => exact ⟨hcommits.reads hfirst hreads hcurrent hend h.1, h.2⟩
  | commit old' first' second' =>
      obtain ⟨splitAt', hother, hhalves⟩ := h
      exact ⟨splitAt', hcommits.reads hfirst hreads hcurrent hend hother, hhalves⟩

theorem sound_step (h : Sound db s) (hread : EventAsRead s m) : Sound db (step s m) := by
  refine Sessions.Inv.move (fun _ _ _ => trivial) ?_ h
  rintro who input ph rfl hph
  have hquiet : ∀ res : Store × Phase, Quiet db s.store res →
      ((∀ stop ∈ db.downtimeEvents, Divided res.1 stop) ∧ Rooted db res.1) ∧
        Knows db res.1 res.2 ∧
        ∀ i u, i ≠ who → s.threads[i]? = some u → Knows db res.1 u := by
    intro res hres
    have hpieces : ∀ stop, pieces res.1 stop = pieces s.store stop := by
      intro stop
      rw [pieces, pieces, hres.events, hres.stops]
    refine ⟨⟨?_, ?_⟩, hres.knows, ?_⟩
    · intro stop hstop
      obtain ⟨hdivides, hsame⟩ := h.1.1 stop hstop
      exact ⟨hpieces stop ▸ hdivides, hpieces stop ▸ hsame⟩
    · intro r hr
      rw [hres.events] at hr
      rw [hres.stops]
      exact h.1.2 r hr
    · intro i u _ hu
      exact (h.2 i u hu).congr hres.events hres.stops
  unfold exec
  cases hlost : input.lost with
  | true => exact hquiet _ (quiet_rollback ph)
  | false =>
      simp only [Bool.false_eq_true, if_false]
      rcases run_cases h.1.1 h.1.2 (h.2 who ph hph) with hq | ⟨old, first, second, rfl, hc, hended⟩
      · exact hquiet _ hq
      · obtain ⟨splitAt, hreads, hfirst, hsecond⟩ := h.2 who _ hph
        obtain ⟨current, hcurrent, -⟩ := hreads.row
        have hfree : s.store.db.downtimeEvents.lookup second.id = none :=
          Table.lookup_eq_none.mpr fun r hr => hc.ne hr
        have hinside := hread hlost _ hph hfree current hcurrent
        refine ⟨⟨?_, hc.rooted hfirst hreads h.1.2⟩, ?_, ?_⟩
        · intro stop hstop
          exact hc.divided hfirst hsecond hreads hcurrent hinside (h.1.1 stop hstop)
        · rw [hended]
          trivial
        · intro i u _ hu
          exact (h.2 i u hu).commits hc hfirst hreads hcurrent hinside.1

/-- The first commit that does not find the event it has read leaves its stop undivided. -/
theorem eventAsRead_of_allDivided (h : Sound db s) (hnext : AllDivided db (step s m)) :
    EventAsRead s m := by
  cases m with
  | call r => trivial
  | advance who input =>
      intro hlost ph hph
      rw [Option.mem_def] at hph
      cases ph with
      | select | update | insert | ended => trivial
      | commit old first second => ?_
      intro hfree current hcurrent
      obtain ⟨splitAt, hreads, hfirst, hsecond⟩ := h.2 who _ hph
      obtain ⟨stop, hstop, horigin, hwithin, -⟩ := hreads.within
      have hmem := (Table.lookup_eq_some.mp hcurrent).1
      have hid : first.id = current.id := hfirst.id.trans (Table.lookup_eq_some.mp hcurrent).2.symm
      obtain ⟨downtimeEvents, hins⟩ : ∃ downtimeEvents,
          (s.store.db.downtimeEvents.put first).insert? second = some downtimeEvents := by
        rw [← Option.ne_none_iff_exists', ne_eq, ← lookup_isSome_iff hmem hid, hfree]
        simp
      have hc : Commits s.store (step s (.advance who input)).store old first second := by
        have hstep : (step s (.advance who input)).store =
            ⟨{ s.store.db with downtimeEvents }, s.store.locks.release old.id,
              Function.update s.store.origin second.id (s.store.origin old.id)⟩ := by
          simp [step, Sessions.step, hph, exec, hlost, run, hins]
        rw [hstep]
        exact ⟨hins, rfl⟩
      exact hc.inside_of_divided hfirst hsecond hreads hcurrent (h.1.1 stop hstop) horigin hwithin
        (hnext stop hstop)

end Moves

end Sessions

/-- Splits of all stops in any order: every stop is divided by the events that come from it in
every state exactly when every split that commits finds the end it has read and is bound
strictly inside the event. -/
theorem stops_divided_iff (db : Database)
    (hproper : ∀ r ∈ db.downtimeEvents, r.startTs < r.endTs) (run : List (Move Split Input)) :
    Along step EventAsRead (opened db) run ↔
      ∀ k, AllDivided db ((run.take k).foldl step (opened db)) := by
  have hinit : AllDivided db (opened db) := by
    intro stop hstop
    have hpieces : pieces (opened db).store stop = {stop} := by
      ext r
      rw [mem_pieces, Set.mem_singleton_iff]
      constructor
      · rintro ⟨hr, hid⟩
        exact Table.eq_of_key_eq hr hstop hid
      · rintro rfl
        exact ⟨hstop, rfl⟩
    constructor
    · rw [hpieces]
      exact divides_singleton (hproper stop hstop)
    · rw [hpieces]
      rintro r rfl
      exact ⟨rfl, rfl⟩
  have hsound : Sound db (opened db) :=
    Sessions.inv_nil ⟨hinit, fun r hr => ⟨r, hr, rfl⟩⟩
  refine along_iff_forall (J := Sound db) ?_ ?_ hinit hsound
  · intro s m _ hs hread
    have hnext := sound_step hs hread
    exact ⟨hnext.1.1, hnext⟩
  · intro s m _ hs hnext
    exact eventAsRead_of_allDivided hs hnext

/-- A press that stood still for a hundred microseconds. -/
def stoppedPress : Database where
  workCenters := ⟨[{ id := "press", areaId := "stamping" }], List.nodup_singleton _⟩
  downtimeEvents := ⟨[⟨"stop", "press", "down", 0, 100, none, none, none⟩], by decide⟩

def splitOf (splitAt : Int) : Split := ⟨"stop", splitAt, none, none, "operator"⟩

/-- The second split reads the stop before the first commits, and updates it afterwards. -/
def crossedSplits : List (Move Split Input) :=
  [.call (splitOf 30000), .call (splitOf 60000), .advance 0 ⟨0, "a", false⟩,
    .advance 1 ⟨0, "b", false⟩, .advance 0 ⟨1, "a", false⟩, .advance 0 ⟨2, "a", false⟩,
    .advance 0 ⟨3, "a", false⟩, .advance 1 ⟨4, "b", false⟩, .advance 1 ⟨5, "b", false⟩, .advance 1 ⟨6, "b", false⟩]

def hasEnded : Phase → Bool
  | .ended _ => true
  | _ => false

/-- Both calls have succeeded, and the last forty microseconds lie in two events. -/
theorem crossedSplits_not_divided :
    ¬ ∀ (db : Database) (run : List (Move Split Input)),
        (∀ r ∈ db.downtimeEvents, r.startTs < r.endTs) →
        (run.foldl step (opened db)).threads.all hasEnded = true →
        AllDivided db (run.foldl step (opened db)) := by
  intro hall
  have hdivided := hall stoppedPress crossedSplits (by decide) (by decide +kernel)
    ⟨"stop", "press", "down", 0, 100, none, none, none⟩ (by decide)
  have ha : (⟨"a", "press", "down", 30, 100, none, none, none⟩ : DowntimeEventRow) ∈
      (crossedSplits.foldl step (opened stoppedPress)).store.db.downtimeEvents.rows := by
    decide +kernel
  have hb : (⟨"b", "press", "down", 60, 100, none, none, none⟩ : DowntimeEventRow) ∈
      (crossedSplits.foldl step (opened stoppedPress)).store.db.downtimeEvents.rows := by
    decide +kernel
  have hapart := hdivided.divides.apart _ ⟨ha, by decide +kernel⟩ _ ⟨hb, by decide +kernel⟩
    (by decide)
  exact absurd hapart (by decide)

/-- The second split reads the stop that the first has left. -/
def serialSplits : List (Move Split Input) :=
  [.call (splitOf 60000), .advance 0 ⟨0, "a", false⟩, .advance 0 ⟨1, "a", false⟩,
    .advance 0 ⟨2, "a", false⟩, .advance 0 ⟨3, "a", false⟩, .call (splitOf 30000),
    .advance 1 ⟨4, "b", false⟩, .advance 1 ⟨5, "b", false⟩, .advance 1 ⟨6, "b", false⟩,
    .advance 1 ⟨7, "b", false⟩]

theorem serialSplits_divided :
    (serialSplits.foldl step (opened stoppedPress)).store.db.downtimeEvents.rows.length = 3 ∧
      ∀ k, AllDivided stoppedPress ((serialSplits.take k).foldl step (opened stoppedPress)) :=
  ⟨by decide +kernel, (stops_divided_iff stoppedPress (by decide) serialSplits).mp
    (by decide +kernel)⟩

end ElectronixMes.Derived.Splitting
