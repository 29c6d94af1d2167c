import ElectronixMes.Db.RepoSync

/-!
# Concurrent calls of the apply

Calls of `apply_batch` run concurrently on one database, one transaction for
each entry, at the isolation level READ COMMITTED. A transaction begins, claims
the entry's id, writes the order and commits; a scheduler picks which session
makes its next statement. A statement that conflicts with another session's
uncommitted row waits: here it leaves the state as it is and is tried again
later. `apply_entry` is a call with a batch of one.

## Implementation notes

The log is not part of the program. It records, in the order of the commits,
which entry was claimed with which plant and timestamp.
-/

namespace ElectronixMes.Sync.Concurrent

open Db Relational Serde

/-- Where the transaction of a session's current entry stands. -/
inductive Phase where
  | idle
  | begun (now : Int)
  /-- The claim met a committed one. -/
  | duplicate
  /-- The claim is inserted and not yet committed. -/
  | claimed (now : Int)
  /-- So is the order row, if the aggregate is known. -/
  | written (now : Int) (row : Option WorkOrderRow)

/-- A running call; the current entry is the head of `todo`. -/
structure Session where
  plantId : Option String
  todo : List SyncEntry
  phase : Phase := .idle
  applied : ℕ := 0
  skipped : ℕ := 0
  error : Option RepoError := none

namespace Session

/-- What the call has returned, once it has. -/
def result (s : Session) : Option (Except RepoError (ℕ × ℕ)) :=
  match s.error, s.todo with
  | some e, _ => some (.error e)
  | none, [] => some (.ok (s.applied, s.skipped))
  | none, _ :: _ => none

/-- The id that the open transaction has claimed. -/
def holds (s : Session) : Option String :=
  match s.phase, s.todo with
  | .claimed _, e :: _ => some e.id
  | .written _ _, e :: _ => some e.id
  | _, _ => none

/-- The order row that the open transaction has written. -/
def pending (s : Session) : Option WorkOrderRow :=
  match s.phase with
  | .written _ row => row
  | _ => none

/-- The open transaction is rolled back and the call returns the error. -/
def fail (s : Session) (e : RepoError) : Session :=
  { s with phase := .idle, error := some e }

/-- The current entry turned out to be a replay. -/
def skip (s : Session) (rest : List SyncEntry) : Session :=
  { s with todo := rest, phase := .idle, skipped := s.skipped + 1 }

/-- The current entry is committed. -/
def advance (s : Session) (rest : List SyncEntry) : Session :=
  { s with todo := rest, phase := .idle, applied := s.applied + 1 }

end Session

structure LogItem where
  session : ℕ
  entry : SyncEntry
  plantId : Option String
  now : Int

structure State where
  db : Database
  sessions : List Session := []
  log : List LogItem := []

/-- The next statement of a session, or the loss of its connection. -/
inductive Move where
  | start (now : Int)
  | claim
  | write
  | commit
  | abort (e : SqlError)

inductive Act where
  | call (batch : List SyncEntry) (plantId : Option String)
  | move (i : ℕ) (m : Move)

/-- The upsert waits for another session's uncommitted row with the order's id
or number, and for one that is about to give the number up. -/
def blocked (c : Codec) (db : Database) (others : List Session) (e : SyncEntry) : Bool :=
  match entryOrder c e with
  | none => false
  | some wo =>
      others.any fun s =>
        match s.pending with
        | none => false
        | some w =>
            w.id = wo.id ∨ w.woNumber = wo.woNumber ∨
              (db.workOrders.lookup w.id).map WorkOrderRow.woNumber = some wo.woNumber

inductive Effect where
  | stay
  | become (s : Session)
  | commit (now : Int) (row : Option WorkOrderRow)

/-- What a statement does, given the committed state and the other sessions. -/
def react (c : Codec) (db : Database) (others : List Session) (s : Session) (e : SyncEntry)
    (rest : List SyncEntry) (m : Move) : Effect :=
  match m, s.phase with
  | .start now, .idle => .become { s with phase := .begun now }
  | .claim, .begun now =>
      if e.id ∈ db.appliedEntries then .become { s with phase := .duplicate }
      else if others.any fun t => t.holds = some e.id then .stay
      else .become { s with phase := .claimed now }
  | .write, .claimed now =>
      if blocked c db others e then .stay
      else
        match entryWrite c db now e s.plantId with
        | .error err => .become (s.fail err)
        | .ok row => .become { s with phase := .written now row }
  | .commit, .duplicate => .become (s.skip rest)
  | .commit, .written now row => .commit now row
  | .abort err, _ => .become (s.fail (mapSqlx err))
  | _, _ => .stay

def step (c : Codec) (sys : State) : Act → State
  | .call batch plantId => { sys with sessions := sys.sessions ++ [{ plantId, todo := batch }] }
  | .move i m =>
      match sys.sessions[i]? with
      | none => sys
      | some s =>
          match s.error, s.todo with
          | none, e :: rest =>
              match react c sys.db (sys.sessions.eraseIdx i) s e rest m with
              | .stay => sys
              | .become s' => { sys with sessions := sys.sessions.set i s' }
              | .commit now row =>
                  { db := commitEntry sys.db e.id row
                    sessions := sys.sessions.set i (s.advance rest)
                    log := sys.log ++ [⟨i, e, s.plantId, now⟩] }
          | _, _ => sys

/-- The state a schedule reaches from a database on which no call runs. -/
def exec (c : Codec) (db : Database) (run : List Act) : State := run.foldl (step c) { db }

/-- How a session can change without a commit of a claim. -/
inductive Becomes (c : Codec) (db : Database) (others : List Session) (s : Session)
    (e : SyncEntry) (rest : List SyncEntry) (m : Move) : Session → Prop where
  | begun (now : Int) : Becomes c db others s e rest m { s with phase := .begun now }
  | duplicate (h : e.id ∈ db.appliedEntries) :
      Becomes c db others s e rest m { s with phase := .duplicate }
  | claimed (now : Int) (h : e.id ∉ db.appliedEntries) (hfree : ∀ t ∈ others, t.holds ≠ some e.id) :
      Becomes c db others s e rest m { s with phase := .claimed now }
  | written (now : Int) (row : Option WorkOrderRow) (hphase : s.phase = .claimed now)
      (hblocked : blocked c db others e = false)
      (hwrite : entryWrite c db now e s.plantId = .ok row) :
      Becomes c db others s e rest m { s with phase := .written now row }
  | refused (now : Int) (err : RepoError) (hphase : s.phase = .claimed now) :
      Becomes c db others s e rest m (s.fail err)
  | skipped (hphase : s.phase = .duplicate) :
      Becomes c db others s e rest m (s.skip rest)
  | lost (err : SqlError) (hm : m = .abort err) :
      Becomes c db others s e rest m (s.fail (mapSqlx err))

section Inversion

variable {c : Codec} {db : Database} {others : List Session} {s s' : Session} {e : SyncEntry}
  {rest : List SyncEntry} {m : Move} {sys : State}

theorem react_become (h : react c db others s e rest m = .become s') :
    Becomes c db others s e rest m s' := by
  unfold react at h
  split at h
  · cases h
    exact .begun _
  · split at h
    · rename_i hmem
      cases h
      exact .duplicate hmem
    · rename_i hmem
      split at h
      · cases h
      · rename_i hfree
        cases h
        refine .claimed _ hmem ?_
        intro t ht heq
        exact hfree (List.any_eq_true.mpr ⟨t, ht, decide_eq_true heq⟩)
  · rename_i hphase
    split at h
    · cases h
    · rename_i hblocked
      rw [Bool.not_eq_true] at hblocked
      split at h
      · cases h
        exact .refused _ _ hphase
      · rename_i hwrite
        cases h
        exact .written _ _ hphase hblocked hwrite
  · rename_i hphase
    cases h
    exact .skipped hphase
  · cases h
  · cases h
    exact .lost _ rfl
  · cases h

theorem react_commit {now : Int} {row : Option WorkOrderRow}
    (h : react c db others s e rest m = .commit now row) : s.phase = .written now row := by
  unfold react at h
  split at h
  · cases h
  · split at h
    · cases h
    · split at h <;> cases h
  · split at h
    · cases h
    · split at h <;> cases h
  · cases h
  · rename_i hphase
    cases h
    exact hphase
  · cases h
  · cases h

/-- A step does nothing, adds a call, changes one running session, or commits
the claim and the write of one. -/
theorem step_cases (c : Codec) (sys : State) (a : Act) :
    (∃ i m, a = .move i m ∧ step c sys a = sys) ∨
    (∃ batch plantId, a = .call batch plantId ∧
      step c sys a = { sys with sessions := sys.sessions ++ [{ plantId, todo := batch }] }) ∨
    ∃ i m s e rest, a = .move i m ∧ sys.sessions[i]? = some s ∧ s.error = none ∧
      s.todo = e :: rest ∧
      ((∃ s', Becomes c sys.db (sys.sessions.eraseIdx i) s e rest m s' ∧
          step c sys a = { sys with sessions := sys.sessions.set i s' }) ∨
        ∃ now row, s.phase = .written now row ∧
          step c sys a =
            { db := commitEntry sys.db e.id row
              sessions := sys.sessions.set i (s.advance rest)
              log := sys.log ++ [⟨i, e, s.plantId, now⟩] }) := by
  cases a with
  | call batch plantId => exact Or.inr (Or.inl ⟨batch, plantId, rfl, rfl⟩)
  | move i m =>
      unfold step
      dsimp only
      cases hs : sys.sessions[i]? with
      | none => exact Or.inl ⟨i, m, rfl, rfl⟩
      | some s =>
          dsimp only
          cases herr : s.error with
          | some err => exact Or.inl ⟨i, m, rfl, rfl⟩
          | none =>
              cases htodo : s.todo with
              | nil => exact Or.inl ⟨i, m, rfl, rfl⟩
              | cons e rest =>
                  dsimp only
                  cases hreact : react c sys.db (sys.sessions.eraseIdx i) s e rest m with
                  | stay => exact Or.inl ⟨i, m, rfl, rfl⟩
                  | become s' =>
                      exact Or.inr (Or.inr ⟨i, m, s, e, rest, rfl, hs, herr, htodo,
                        Or.inl ⟨s', react_become hreact, rfl⟩⟩)
                  | commit now row =>
                      exact Or.inr (Or.inr ⟨i, m, s, e, rest, rfl, hs, herr, htodo,
                        Or.inr ⟨now, row, react_commit hreact, rfl⟩⟩)

end Inversion

end ElectronixMes.Sync.Concurrent
