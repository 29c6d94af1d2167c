import ElectronixMes.Db.RepoOee
import ElectronixMes.Derived.Replay
import ElectronixMes.Transition.Run
import ElectronixMes.Transition.Transaction

/-!
# Batches posted again

A batch of signals sends a lookup for each new source key and an insert for each
signal of an enabled source, and each of these statements commits alone. When
one of them fails the batch is rejected, but the inserts before it stay, and so
does its own when only the answer was lost. The next attempt sends them again
under new ids. So every signal is stored exactly once exactly when no rejected
attempt had committed an insert.
-/

namespace ElectronixMes.Derived.Retries

open Db Edge Relational Timeline Transition

/-- What the statements of a post fail with. -/
abbrev Failures := Faults (Failure RepoError)

/-- One post of a batch: its failures, and the ids that are drawn. -/
structure Attempt where
  failures : Failures
  ids : ℕ → String

/-- The variables of the loop with the number of statements that were sent. -/
structure Posting where
  intake : Intake
  sent : ℕ

/-- The source of a signal; a key that is not in the cache sends a lookup. -/
def Posting.source (failures : Failures) (p : Posting) (sourceKey : String) :
    Except RepoError (Option SignalSourceRow × ℕ) :=
  match p.intake.cache sourceKey with
  | some source => .ok (source, p.sent)
  | none =>
      match failures p.sent with
      | some failure => .error failure.error
      | none => .ok (resolveSource p.intake.db sourceKey, p.sent + 1)

/-- One round of the loop when statements may fail, with the store it leaves. -/
def Posting.ingest (a : Attempt) (p : Posting) (sig : RawSignal) :
    Database × Except ApiErr Posting :=
  match p.source a.failures sig.sourceKey with
  | .error e => (p.intake.db, .error (repoErr e))
  | .ok (source, sent) =>
      let cache := Function.update p.intake.cache sig.sourceKey (some source)
      match source.filter SignalSourceRow.enabled with
      | none =>
          (p.intake.db, .ok ⟨{ p.intake with cache, dropped := p.intake.dropped + 1 }, sent⟩)
      | some source =>
          match commitAlone a.failures sent p.intake.db
              (fun db => storeSignal db (a.ids p.intake.accepted) source sig) with
          | (db, .error e) => (db, .error (repoErr e))
          | (db, .ok ()) =>
              (db, .ok
                ⟨{ p.intake with db, cache, accepted := p.intake.accepted + 1 }, sent + 1⟩)

def postLoop (a : Attempt) : Posting → List RawSignal → Database × Except ApiErr IngestResult
  | p, [] => (p.intake.db, .ok ⟨p.intake.accepted, p.intake.dropped⟩)
  | p, sig :: rest =>
      match p.ingest a sig with
      | (db, .error e) => (db, .error e)
      | (_, .ok p) => postLoop a p rest

/-- Post a batch of raw signals. -/
def post (a : Attempt) (db : Database) (signals : List RawSignal) :
    Database × Except ApiErr IngestResult :=
  postLoop a ⟨{ db, cache := fun _ => none, accepted := 0, dropped := 0 }, 0⟩ signals

/-- Without failures a post is the handler. -/
theorem post_never (ids : ℕ → String) (db : Database) (signals : List RawSignal) :
    post ⟨.never, ids⟩ db signals = ingestSignals db ids signals := by
  suffices h : ∀ (p : Posting), postLoop ⟨.never, ids⟩ p signals =
      ingestLoop ids p.intake signals from h _
  induction signals with
  | nil => exact fun _ => rfl
  | cons sig rest ih =>
      intro p
      have hsource : ∃ sent, p.source .never sig.sourceKey =
          .ok (p.intake.source sig.sourceKey, sent) := by
        unfold Posting.source Intake.source
        cases p.intake.cache sig.sourceKey with
        | some source => exact ⟨_, rfl⟩
        | none => exact ⟨_, rfl⟩
      obtain ⟨sent, hsource⟩ := hsource
      simp only [postLoop, ingestLoop, Posting.ingest, Intake.ingest, hsource, commitAlone,
        Faults.never]
      cases (p.intake.source sig.sourceKey).filter SignalSourceRow.enabled with
      | none => exact ih _
      | some source =>
          dsimp only
          cases storeSignal p.intake.db (ids p.intake.accepted) source sig with
          | error e => rfl
          | ok db => exact ih _

section Statements

/-- A statement of a batch. -/
inductive Statement where
  | resolve (sourceKey : String)
  | store (id : String) (source : SignalSourceRow) (sig : RawSignal)

def Statement.run : Statement → Database → Except RepoError Database
  | resolve _, db => .ok db
  | store id source sig, db => storeSignal db id source sig

/-- The lookups of a key: the first signal of a source sends one. -/
def lookups (seen : List String) (sourceKey : String) : List Statement :=
  if sourceKey ∈ seen then [] else [.resolve sourceKey]

/-- The statements of a batch: the keys that were looked up, and the number of the next
accepted signal. -/
def statements (db : Database) (ids : ℕ → String) :
    List String → ℕ → List RawSignal → List Statement
  | _, _, [] => []
  | seen, n, sig :: rest =>
      lookups seen sig.sourceKey ++
        match (resolveSource db sig.sourceKey).filter SignalSourceRow.enabled with
        | none => statements db ids (sig.sourceKey :: seen) n rest
        | some source =>
            .store (ids n) source sig :: statements db ids (sig.sourceKey :: seen) (n + 1) rest

variable {a : Attempt} {db : Database} {seen : List String}

/-- What the cache holds once the keys have been seen. -/
def Cached (db : Database) (seen : List String) (p : Posting) : Prop :=
  p.intake.db.signalSources = db.signalSources ∧
    ∀ key, p.intake.cache key = if key ∈ seen then some (resolveSource db key) else none

theorem resolveSource_congr {db' : Database} (h : db'.signalSources = db.signalSources)
    (sourceKey : String) : resolveSource db' sourceKey = resolveSource db sourceKey := by
  unfold resolveSource
  rw [h]

/-- The source of a signal is the registry's, unless its lookup fails. -/
theorem Posting.source_cases {p : Posting} (hp : Cached db seen p) (sourceKey : String) :
    (∃ e, p.source a.failures sourceKey = .error e ∧
      ∀ stmts, sendEach a.failures p.sent p.intake.db
        ((lookups seen sourceKey).map Statement.run ++ stmts) = (p.intake.db, .error e)) ∨
      ∃ sent, p.source a.failures sourceKey = .ok (resolveSource db sourceKey, sent) ∧
        ∀ stmts, sendEach a.failures p.sent p.intake.db
          ((lookups seen sourceKey).map Statement.run ++ stmts) =
            sendEach a.failures sent p.intake.db stmts := by
  unfold Posting.source lookups
  rw [hp.2]
  by_cases hseen : sourceKey ∈ seen
  · right
    simp [hseen]
  · simp only [hseen, if_false, List.map_singleton, List.singleton_append, sendEach,
      Statement.run, commitAlone, resolveSource_congr hp.1]
    cases a.failures p.sent with
    | some failure =>
        left
        refine ⟨failure.error, rfl, ?_⟩
        simp
    | none => exact Or.inr ⟨p.sent + 1, rfl, fun _ => rfl⟩

theorem Cached.update {p : Posting} (hp : Cached db seen p) {st : Intake} {sourceKey : String}
    (hsources : st.db.signalSources = p.intake.db.signalSources)
    (hcache : st.cache =
      Function.update p.intake.cache sourceKey (some (resolveSource db sourceKey)))
    (sent : ℕ) : Cached db (sourceKey :: seen) ⟨st, sent⟩ := by
  refine ⟨hsources.trans hp.1, ?_⟩
  intro key
  by_cases hkey : key = sourceKey
  · subst hkey
    simp [hcache]
  · simp [hcache, hkey, hp.2]

theorem signalSources_of_stored {db' : Database} {id : String} {source : SignalSourceRow}
    {sig : RawSignal} (h : storeSignal db id source sig = .ok db') :
    db'.signalSources = db.signalSources := by
  rcases storeSignal_cases h with ⟨_, -, -, rfl⟩ | ⟨_, _, _, -, -, rfl⟩
  · rfl
  · rfl

/-- The loop sends the statements of the batch. -/
theorem postLoop_eq {signals : List RawSignal} {p : Posting} (hp : Cached db seen p) :
    let res := sendEach a.failures p.sent p.intake.db
      ((statements db a.ids seen p.intake.accepted signals).map Statement.run)
    (postLoop a p signals).1 = res.1 ∧
      (postLoop a p signals).2.map (fun _ => ()) = res.2.mapError repoErr := by
  induction signals generalizing p seen with
  | nil => exact ⟨rfl, rfl⟩
  | cons sig rest ih =>
      rw [statements, List.map_append, postLoop, Posting.ingest]
      rcases p.source_cases (a := a) hp sig.sourceKey with
        ⟨e, hsource, hsend⟩ | ⟨sent, hsource, hsend⟩
      · rw [hsource, hsend]
        exact ⟨rfl, rfl⟩
      · rw [hsource, hsend]
        dsimp only
        cases hfilter : (resolveSource db sig.sourceKey).filter SignalSourceRow.enabled with
        | none =>
            apply ih
            apply hp.update
            · rfl
            · rfl
        | some source =>
            have hrun : (Statement.store (a.ids p.intake.accepted) source sig).run =
                fun db => storeSignal db (a.ids p.intake.accepted) source sig := rfl
            dsimp only
            rw [List.map_cons, sendEach, hrun]
            cases hcommit : commitAlone a.failures sent p.intake.db
                fun db => storeSignal db (a.ids p.intake.accepted) source sig with
            | mk db' answer =>
                cases answer with
                | error e => exact ⟨rfl, rfl⟩
                | ok _ =>
                    have hstored := signalSources_of_stored (commitAlone_eq_ok hcommit)
                    exact ih (hp.update hstored rfl (sent + 1))

end Statements

section Rows

/-- The machine event that a signal of a source is stored as. -/
def eventOf (id : String) (source : SignalSourceRow) (sig : RawSignal) : Option MachineEventRow :=
  match sig.event with
  | .cycle | .heartbeat =>
      some ⟨id, toSql sig.ts, source.workCenterId, some source.id, sig.event.eventType⟩
  | .count _ _ => none

/-- The production count that a signal of a source is stored as. -/
def countOf (id : String) (source : SignalSourceRow) (sig : RawSignal) :
    Option ProductionCountRow :=
  match sig.event with
  | .cycle | .heartbeat => none
  | .count good scrap =>
      some ⟨id, toSql sig.ts, source.workCenterId, some source.id, good, scrap, none, none⟩

def Statement.event : Statement → Option MachineEventRow
  | .resolve _ => none
  | .store id source sig => eventOf id source sig

def Statement.count : Statement → Option ProductionCountRow
  | .resolve _ => none
  | .store id source sig => countOf id source sig

def Statement.isStore : Statement → Bool
  | .resolve _ => false
  | .store _ _ _ => true

/-- An insert stores one row, in the table that its signal goes to. -/
theorem not_isStore_iff {stmt : Statement} :
    stmt.isStore = false ↔ stmt.event = none ∧ stmt.count = none := by
  cases stmt with
  | resolve key => simp [Statement.isStore, Statement.event, Statement.count]
  | store id source sig =>
      cases hkind : sig.event with
      | cycle => simp [Statement.isStore, Statement.event, eventOf, hkind]
      | heartbeat => simp [Statement.isStore, Statement.event, eventOf, hkind]
      | count good scrap => simp [Statement.isStore, Statement.count, countOf, hkind]

theorem id_of_event {stmt : Statement} {r : MachineEventRow} (h : stmt.event = some r) :
    ∃ source sig, stmt = .store r.id source sig := by
  cases stmt with
  | resolve key => cases h
  | store id source sig =>
      have hrow : eventOf id source sig = some r := h
      refine ⟨source, sig, ?_⟩
      cases hkind : sig.event with
      | cycle =>
          simp only [eventOf, hkind, Option.some.injEq] at hrow
          rw [← hrow]
      | heartbeat =>
          simp only [eventOf, hkind, Option.some.injEq] at hrow
          rw [← hrow]
      | count good scrap => simp [eventOf, hkind] at hrow

theorem id_of_count {stmt : Statement} {r : ProductionCountRow} (h : stmt.count = some r) :
    ∃ source sig, stmt = .store r.id source sig := by
  cases stmt with
  | resolve key => cases h
  | store id source sig =>
      have hrow : countOf id source sig = some r := h
      refine ⟨source, sig, ?_⟩
      cases hkind : sig.event with
      | cycle => simp [countOf, hkind] at hrow
      | heartbeat => simp [countOf, hkind] at hrow
      | count good scrap =>
          simp only [countOf, hkind, Option.some.injEq] at hrow
          rw [← hrow]

/-- The statements have appended their rows and done nothing else. -/
structure Appended (db : Database) (stmts : List Statement) (db' : Database) : Prop where
  events : db'.machineEvents.rows = db.machineEvents.rows ++ stmts.filterMap Statement.event
  counts : db'.productionCounts.rows =
    db.productionCounts.rows ++ stmts.filterMap Statement.count
  frame : db' = { db with
    machineEvents := db'.machineEvents
    productionCounts := db'.productionCounts }

variable {db db' db'' : Database} {stmts : List Statement}

theorem Appended.nil (db : Database) : Appended db [] db := ⟨by simp, by simp, rfl⟩

theorem Appended.cons {stmt : Statement} (hfirst : Appended db [stmt] db')
    (hrest : Appended db' stmts db'') : Appended db (stmt :: stmts) db'' := by
  refine ⟨?_, ?_, signalsOnly_trans hfirst.frame hrest.frame⟩
  · calc
      db''.machineEvents.rows
        = db'.machineEvents.rows ++ stmts.filterMap Statement.event := hrest.events
      _ = db.machineEvents.rows ++ [stmt].filterMap Statement.event ++
            stmts.filterMap Statement.event := by rw [hfirst.events]
      _ = db.machineEvents.rows ++ (stmt :: stmts).filterMap Statement.event := by
            rw [List.append_assoc, ← List.filterMap_append, List.singleton_append]
  · calc
      db''.productionCounts.rows
        = db'.productionCounts.rows ++ stmts.filterMap Statement.count := hrest.counts
      _ = db.productionCounts.rows ++ [stmt].filterMap Statement.count ++
            stmts.filterMap Statement.count := by rw [hfirst.counts]
      _ = db.productionCounts.rows ++ (stmt :: stmts).filterMap Statement.count := by
            rw [List.append_assoc, ← List.filterMap_append, List.singleton_append]

/-- A statement that succeeds has appended its row. -/
theorem appended_of_run {stmt : Statement} (h : stmt.run db = .ok db') :
    Appended db [stmt] db' := by
  cases stmt with
  | resolve key =>
      cases h
      exact ⟨by simp [Statement.event], by simp [Statement.count], rfl⟩
  | store id source sig =>
      rcases storeSignal_cases h with
        ⟨events, hkind, hins, rfl⟩ | ⟨good, scrap, counts, hkind, hins, rfl⟩
      · have hevent : eventOf id source sig =
            some ⟨id, toSql sig.ts, source.workCenterId, some source.id, sig.event.eventType⟩ := by
          rcases hkind with hkind | hkind <;> simp [eventOf, hkind]
        have hcount : countOf id source sig = none := by
          rcases hkind with hkind | hkind <;> simp [countOf, hkind]
        refine ⟨?_, ?_, rfl⟩
        · simp [Statement.event, hevent, Table.rows_insert? hins]
        · simp [Statement.count, hcount]
      · refine ⟨?_, ?_, rfl⟩
        · simp [Statement.event, eventOf, hkind]
        · simp [Statement.count, countOf, hkind, Table.rows_insert? hins]

/-- Statements that succeed have appended their rows. -/
theorem appended_of_runAll
    (h : runAll Faults.never 0 db (stmts.map Statement.run) = .ok db') :
    Appended db stmts db' := by
  induction stmts generalizing db with
  | nil =>
      cases h
      exact Appended.nil _
  | cons stmt rest ih =>
      rw [List.map_cons, runAll, Faults.send_never] at h
      cases hstmt : stmt.run db with
      | error e =>
          rw [hstmt] at h
          cases h
      | ok mid =>
          rw [hstmt] at h
          exact (appended_of_run hstmt).cons (ih (runAll_ok h 0))

end Rows

section Posts

variable {db : Database} {ids : ℕ → ℕ → String} {signals : List RawSignal}

/-- A post sends the statements of its batch. -/
theorem post_eq (a : Attempt) (db : Database) (signals : List RawSignal) :
    let res := sendEach a.failures 0 db ((statements db a.ids [] 0 signals).map Statement.run)
    (post a db signals).1 = res.1 ∧
      (post a db signals).2.map (fun _ => ()) = res.2.mapError repoErr :=
  postLoop_eq ⟨rfl, fun _ => rfl⟩

/-- Nothing but a failure stops the statements of a batch on new ids. -/
theorem exists_runAll_statements (hplaced : SourcesPlaced db) (hids : NewSignalIds db ids)
    (signals : List RawSignal) :
    ∃ db', runAll Faults.never 0 db
      ((statements db (ids 0) [] 0 signals).map Statement.run) = .ok db' := by
  obtain ⟨res, hres⟩ := ingestSignals_isOk hplaced hids signals
  obtain ⟨-, hanswer⟩ := post_eq ⟨.never, ids 0⟩ db signals
  rw [post_never, hres] at hanswer
  generalize hsend : sendEach Faults.never 0 db _ = sent at hanswer
  obtain ⟨db', answer⟩ := sent
  cases answer with
  | error e => cases hanswer
  | ok _ => exact ⟨db', runAll_of_sendEach hsend⟩

/-- A post on new ids is accepted and appends the rows of its batch, or it is rejected at
the first statement that fails and appends the rows of those that have committed. -/
theorem post_cases (hplaced : SourcesPlaced db) (hids : NewSignalIds db ids)
    (failures : Failures) (signals : List RawSignal) :
    let stmts := statements db (ids 0) [] 0 signals
    let res := post ⟨failures, ids 0⟩ db signals
    ((∃ r, res.2 = .ok r) ∧ Appended db stmts res.1) ∨
      (∃ e, res.2 = .error e) ∧ ∃ k failure, k < stmts.length ∧ failures k = some failure ∧
        (∀ m < k, failures m = none) ∧ Appended db (stmts.take (failure.done k)) res.1 := by
  intro stmts res
  obtain ⟨full, hfull⟩ := exists_runAll_statements hplaced hids signals
  obtain ⟨hdb, hanswer⟩ := post_eq ⟨failures, ids 0⟩ db signals
  rcases failures.first_or_never stmts.length with
    hnever | ⟨k, failure, hk, hfailure, hfirst⟩
  · left
    have hsend := @sendEach_of_never _ _ db full _ failures 0 hfull (by simpa using hnever)
    rw [hsend] at hdb hanswer
    refine ⟨?_, hdb ▸ appended_of_runAll hfull⟩
    cases hpost : (post ⟨failures, ids 0⟩ db signals).2 with
    | error e =>
        rw [hpost] at hanswer
        cases hanswer
    | ok r => exact ⟨r, rfl⟩
  · right
    obtain ⟨mid, hmid⟩ := runAll_take hfull (failure.done k)
    have hsend := @sendEach_of_first _ _ db mid _ failures 0 k failure (by simpa using hk) hmid
      (by simpa using hfailure) (by simpa using hfirst)
    rw [hsend] at hdb hanswer
    rw [← List.map_take] at hmid
    refine ⟨?_, k, failure, hk, hfailure, hfirst, hdb ▸ appended_of_runAll hmid⟩
    cases hpost : (post ⟨failures, ids 0⟩ db signals).2 with
    | error e => exact ⟨e, rfl⟩
    | ok r =>
        rw [hpost] at hanswer
        cases hanswer

theorem mem_statements {draw : ℕ → String} {seen : List String} {n : ℕ} {id : String}
    {source : SignalSourceRow} {sig : RawSignal}
    (h : Statement.store id source sig ∈ statements db draw seen n signals) :
    ∃ k, id = draw k := by
  induction signals generalizing seen n with
  | nil => cases h
  | cons first rest ih =>
      have hlookups : Statement.store id source sig ∉ lookups seen first.sourceKey := by
        unfold lookups
        split <;> simp
      rw [statements, List.mem_append, or_iff_right hlookups] at h
      split at h
      · exact ih h
      · rcases List.mem_cons.mp h with heq | h
        · exact ⟨n, (Statement.store.inj heq).1⟩
        · exact ih h

/-- Rows of a batch leave the ids of the later ones new. -/
theorem Appended.newSignalIds {db' : Database} {stmts : List Statement}
    (h : Appended db stmts db') (hids : NewSignalIds db ids)
    (hstmts : ∀ stmt ∈ stmts, stmt ∈ statements db (ids 0) [] 0 signals) :
    NewSignalIds db' (fun b => ids (b + 1)) := by
  have hold {source : SignalSourceRow} {sig : RawSignal} {id : String}
      (hstmt : Statement.store id source sig ∈ stmts) (b k : ℕ) : id ≠ ids (b + 1) k := by
    obtain ⟨j, rfl⟩ := mem_statements (hstmts _ hstmt)
    intro heq
    have hbatch := (hids.injective _ _ _ _ heq).1
    omega
  constructor
  · intro b k b' k' heq
    have hinj := hids.injective _ _ _ _ heq
    exact ⟨by omega, hinj.2⟩
  · intro b k r hr
    rw [← Table.mem_rows, h.events, List.mem_append, List.mem_filterMap] at hr
    rcases hr with hr | ⟨stmt, hstmt, hevent⟩
    · exact hids.events (b + 1) k r hr
    · obtain ⟨source, sig, rfl⟩ := id_of_event hevent
      exact hold hstmt b k
  · intro b k r hr
    rw [← Table.mem_rows, h.counts, List.mem_append, List.mem_filterMap] at hr
    rcases hr with hr | ⟨stmt, hstmt, hcount⟩
    · exact hids.counts (b + 1) k r hr
    · obtain ⟨source, sig, rfl⟩ := id_of_count hcount
      exact hold hstmt b k

theorem Appended.signalSources {db' : Database} {stmts : List Statement}
    (h : Appended db stmts db') : db'.signalSources = db.signalSources := by
  rw [h.frame]

theorem Appended.sourcesPlaced {db' : Database} {stmts : List Statement}
    (h : Appended db stmts db') (hplaced : SourcesPlaced db) : SourcesPlaced db' := by
  rw [h.frame]
  exact hplaced

end Posts

section Condition

/-- The number of the first insert that a batch sends. -/
def firstInsert (db : Database) (signals : List RawSignal) : ℕ :=
  (statements db (fun _ => "") [] 0 signals).findIdx Statement.isStore

/-- The database fails before the first insert of the batch, or at it and does not commit it. -/
def FailsEarly (db : Database) (signals : List RawSignal) (failures : Failures) : Prop :=
  ∃ k failure, failures k = some failure ∧ failure.done k ≤ firstInsert db signals

variable {db db' : Database} {signals : List RawSignal} {failures : Failures}

/-- Which statements are inserts does not depend on the drawn ids. -/
theorem isStore_statements (draw draw' : ℕ → String) (seen : List String) (n n' : ℕ) :
    (statements db draw seen n signals).map Statement.isStore =
      (statements db draw' seen n' signals).map Statement.isStore := by
  induction signals generalizing seen n n' with
  | nil => rfl
  | cons sig rest ih =>
      rw [statements, statements, List.map_append, List.map_append]
      congr 1
      cases (resolveSource db sig.sourceKey).filter SignalSourceRow.enabled with
      | none => exact ih _ _ _
      | some source => simp [Statement.isStore, ih _ _ (n' + 1)]

theorem firstInsert_eq (draw : ℕ → String) : firstInsert db signals =
    (statements db draw [] 0 signals).findIdx Statement.isStore := by
  have hmap (stmts : List Statement) :
      stmts.findIdx Statement.isStore = (stmts.map Statement.isStore).findIdx id := by
    rw [List.findIdx_map]
    rfl
  rw [firstInsert, hmap, hmap, isStore_statements]

/-- None of the first elements has the property exactly when they end before the first that
has. -/
theorem le_findIdx_iff {α : Type*} {l : List α} {q : α → Bool} {k : ℕ} (hk : k ≤ l.length) :
    k ≤ l.findIdx q ↔ ∀ x ∈ l.take k, q x = false := by
  constructor
  · intro hle x hx
    obtain ⟨m, hm, rfl⟩ := List.getElem_of_mem hx
    rw [List.getElem_take]
    rw [List.length_take] at hm
    exact List.not_of_lt_findIdx (by omega)
  · intro hnone
    rw [← List.take_append_drop k l, List.findIdx_append, List.findIdx_eq_length_of_false hnone,
      List.length_take]
    split <;> omega

/-- A first failure is early exactly when no insert has committed. -/
theorem failsEarly_iff {draw : ℕ → String} {k : ℕ} {failure : Failure RepoError}
    (hk : k < (statements db draw [] 0 signals).length) (hfailure : failures k = some failure)
    (hfirst : ∀ m < k, failures m = none) : FailsEarly db signals failures ↔
      ∀ stmt ∈ (statements db draw [] 0 signals).take (failure.done k), stmt.isStore = false := by
  rw [← le_findIdx_iff ((failure.done_le k).trans hk), ← firstInsert_eq]
  constructor
  · rintro ⟨j, other, hother, hj⟩
    rcases Nat.lt_trichotomy j k with hlt | rfl | hlt
    · rw [hfirst j hlt] at hother
      cases hother
    · rw [hfailure] at hother
      cases hother
      exact hj
    · calc
        failure.done k ≤ k + 1 := failure.done_le k
        _ ≤ j := hlt
        _ ≤ other.done j := other.le_done j
        _ ≤ firstInsert db signals := hj
  · intro hle
    exact ⟨k, failure, hfailure, hle⟩

theorem statements_congr (h : db'.signalSources = db.signalSources) (draw : ℕ → String)
    (seen : List String) (n : ℕ) :
    statements db' draw seen n signals = statements db draw seen n signals := by
  induction signals generalizing seen n with
  | nil => rfl
  | cons sig rest ih =>
      rw [statements, statements, resolveSource_congr h]
      congr 1
      cases (resolveSource db sig.sourceKey).filter SignalSourceRow.enabled with
      | none => exact ih _ _
      | some source => exact congrArg (List.cons _) (ih _ _)

theorem failsEarly_congr (h : db'.signalSources = db.signalSources) :
    FailsEarly db' signals failures ↔ FailsEarly db signals failures := by
  unfold FailsEarly firstInsert
  rw [statements_congr h]

/-- Nothing was appended when no statement was an insert, and only then. -/
theorem Appended.untouched_iff {stmts : List Statement} (h : Appended db stmts db') :
    db'.machineEvents = db.machineEvents ∧ db'.productionCounts = db.productionCounts ↔
      ∀ stmt ∈ stmts, stmt.isStore = false := by
  rw [Table.ext_iff, Table.ext_iff, h.events, h.counts, List.append_right_eq_self,
    List.append_right_eq_self, List.filterMap_eq_nil_iff, List.filterMap_eq_nil_iff]
  simp only [not_isStore_iff]
  exact forall₂_and.symm

end Condition

section Specification

/-- What an event row says apart from its id. -/
def eventContent (r : MachineEventRow) : MachineEventRow := { r with id := "" }

def countContent (r : ProductionCountRow) : ProductionCountRow := { r with id := "" }

/-- The signals of a batch whose source is enabled, each with its source. -/
def enabledSignals (db : Database) (signals : List RawSignal) :
    List (SignalSourceRow × RawSignal) :=
  signals.filterMap fun sig =>
    ((resolveSource db sig.sourceKey).filter SignalSourceRow.enabled).map fun source =>
      (source, sig)

def batchEvents (db : Database) (signals : List RawSignal) : List MachineEventRow :=
  (enabledSignals db signals).filterMap fun p => eventOf "" p.1 p.2

def batchCounts (db : Database) (signals : List RawSignal) : List ProductionCountRow :=
  (enabledSignals db signals).filterMap fun p => countOf "" p.1 p.2

/-- The sum of a column over the counts of a work center in a window. -/
def tally (column : ProductionCountRow → Int32) (rows : List ProductionCountRow)
    (workCenterId : String) (window : Span Int) : Int :=
  ((rows.filter fun r => r.workCenterId = workCenterId ∧ r.ts ∈ window).map fun r =>
    (column r).toInt).sum

/-- Each signal of an enabled source was appended once, and the good and scrap totals
count it once. -/
structure StoredOnce (signals : List RawSignal) (db db' : Database) : Prop where
  events : db'.machineEvents.rows.map eventContent =
    db.machineEvents.rows.map eventContent ++ batchEvents db signals
  counts : db'.productionCounts.rows.map countContent =
    db.productionCounts.rows.map countContent ++ batchCounts db signals
  good : ∀ workCenterId window, goodCount db' workCenterId window =
    goodCount db workCenterId window +
      tally ProductionCountRow.good (batchCounts db signals) workCenterId window
  scrap : ∀ workCenterId window,
    tally ProductionCountRow.scrap db'.productionCounts.rows workCenterId window =
      tally ProductionCountRow.scrap db.productionCounts.rows workCenterId window +
        tally ProductionCountRow.scrap (batchCounts db signals) workCenterId window

variable {db db' : Database} {signals : List RawSignal}

section Content

variable {β : Type} {f : Statement → Option β} {content : β → β}
  {row : String → SignalSourceRow → RawSignal → Option β}

/-- The inserts of a batch carry the rows of its enabled signals. -/
theorem rows_statements (hresolve : ∀ key, f (.resolve key) = none)
    (hstore : ∀ id source sig, (f (.store id source sig)).map content = row "" source sig)
    (draw : ℕ → String) (seen : List String) (n : ℕ) :
    ((statements db draw seen n signals).filterMap f).map content =
      (enabledSignals db signals).filterMap fun p => row "" p.1 p.2 := by
  rw [List.map_filterMap]
  induction signals generalizing seen n with
  | nil => rfl
  | cons sig rest ih =>
      have hlookups : (lookups seen sig.sourceKey).filterMap (fun stmt => (f stmt).map content) =
          [] := by
        unfold lookups
        split
        · rfl
        · simp [hresolve]
      rw [statements, List.filterMap_append, hlookups, List.nil_append, enabledSignals,
        List.filterMap_cons]
      cases (resolveSource db sig.sourceKey).filter SignalSourceRow.enabled with
      | none => exact ih _ _
      | some source =>
          rw [Option.map_some, List.filterMap_cons, List.filterMap_cons, hstore]
          dsimp only
          rw [ih, enabledSignals]

end Content

theorem events_statements (draw : ℕ → String) :
    ((statements db draw [] 0 signals).filterMap Statement.event).map eventContent =
      batchEvents db signals := by
  apply rows_statements (fun _ => rfl)
  rintro id source ⟨key, ts, event⟩
  cases event <;> rfl

theorem counts_statements (draw : ℕ → String) :
    ((statements db draw [] 0 signals).filterMap Statement.count).map countContent =
      batchCounts db signals := by
  apply rows_statements (fun _ => rfl)
  rintro id source ⟨key, ts, event⟩
  cases event <;> rfl

theorem tally_append (column : ProductionCountRow → Int32) (rows rows' : List ProductionCountRow)
    (wc : String) (window : Span Int) : tally column (rows ++ rows') wc window =
      tally column rows wc window + tally column rows' wc window := by
  unfold tally
  rw [List.filter_append, List.map_append, List.sum_append]

/-- A total does not see the ids. -/
theorem tally_content {column : ProductionCountRow → Int32}
    (hcolumn : ∀ r, column (countContent r) = column r) (rows : List ProductionCountRow)
    (wc : String) (window : Span Int) :
    tally column (rows.map countContent) wc window = tally column rows wc window := by
  unfold tally
  rw [List.filter_map, List.map_map]
  simp only [Function.comp_def, hcolumn]
  rfl

/-- A batch whose rows were all appended to the rows before it is stored once. -/
theorem storedOnce_of_appended {draw : ℕ → String}
    (h : Appended db (statements db draw [] 0 signals) db') : StoredOnce signals db db' := by
  have hcounts : db'.productionCounts.rows.map countContent =
      db.productionCounts.rows.map countContent ++ batchCounts db signals := by
    rw [h.counts, List.map_append, counts_statements]
  have htally {column : ProductionCountRow → Int32}
      (hcolumn : ∀ r, column (countContent r) = column r) (wc : String) (window : Span Int) :
      tally column db'.productionCounts.rows wc window =
        tally column db.productionCounts.rows wc window +
          tally column (batchCounts db signals) wc window := by
    rw [← tally_content hcolumn, hcounts, tally_append, tally_content hcolumn]
  refine ⟨?_, hcounts, htally fun _ => rfl, htally fun _ => rfl⟩
  rw [h.events, List.map_append, events_statements]

end Specification

section Retries

/-- One post of the batch as a step of the store. -/
def repost (signals : List RawSignal) (db : Database) (a : Attempt) : Database :=
  (post a db signals).1

/-- The posts of a batch, each on ids of its own. -/
def attempts : (ℕ → ℕ → String) → List (Failures) → List Attempt
  | _, [] => []
  | ids, failures :: rest => ⟨failures, ids 0⟩ :: attempts (fun b => ids (b + 1)) rest

def Rejected (signals : List RawSignal) (db : Database) (a : Attempt) : Prop :=
  ∃ e, (post a db signals).2 = .error e

def Accepted (signals : List RawSignal) (db : Database) (a : Attempt) : Prop :=
  ∃ res, (post a db signals).2 = .ok res

/-- The post has changed neither of the tables of the signals. -/
def Untouched (signals : List RawSignal) (db : Database) (a : Attempt) : Prop :=
  (repost signals db a).machineEvents = db.machineEvents ∧
    (repost signals db a).productionCounts = db.productionCounts

/-- The number of stored signals. -/
def stored (db : Database) : ℕ := db.machineEvents.rows.length + db.productionCounts.rows.length

variable {db : Database} {ids : ℕ → ℕ → String} {signals : List RawSignal}

theorem stored_of_appended {db' : Database} {stmts : List Statement}
    (h : Appended db stmts db') : stored db ≤ stored db' ∧
      (stored db' = stored db ↔ ∀ stmt ∈ stmts, stmt.isStore = false) := by
  unfold stored
  rw [h.events, h.counts, List.length_append, List.length_append]
  refine ⟨by omega, ?_⟩
  rw [← h.untouched_iff, Table.ext_iff, Table.ext_iff, h.events, h.counts,
    List.append_right_eq_self, List.append_right_eq_self, ← List.length_eq_zero_iff,
    ← List.length_eq_zero_iff]
  omega

/-- What a rejected post leaves: the tables as they were when it failed early, and more
rows when it did not. -/
theorem rejected_post (hplaced : SourcesPlaced db) (hids : NewSignalIds db ids)
    {failures : Failures} (hrejected : Rejected signals db ⟨failures, ids 0⟩) :
    let db' := repost signals db ⟨failures, ids 0⟩
    (SourcesPlaced db' ∧ NewSignalIds db' (fun b => ids (b + 1)) ∧
      db'.signalSources = db.signalSources) ∧ stored db ≤ stored db' ∧
      (stored db' = stored db ↔ FailsEarly db signals failures) ∧
      (Untouched signals db ⟨failures, ids 0⟩ ↔ FailsEarly db signals failures) := by
  intro db'
  obtain ⟨e, he⟩ := hrejected
  rcases post_cases hplaced hids failures signals with
    ⟨⟨r, hr⟩, -⟩ | ⟨-, k, failure, hk, hfailure, hfirst, happ⟩
  · rw [he] at hr
    cases hr
  · obtain ⟨hle, heq⟩ := stored_of_appended happ
    rw [← failsEarly_iff hk hfailure hfirst] at heq
    refine ⟨⟨happ.sourcesPlaced hplaced, ?_, happ.signalSources⟩, hle, heq, ?_⟩
    · apply happ.newSignalIds hids
      intro stmt hstmt
      exact List.mem_of_mem_take hstmt
    · rw [failsEarly_iff hk hfailure hfirst]
      exact happ.untouched_iff

/-- What a run of rejected posts leaves. -/
theorem rejected_run {failed : List (Failures)} (hplaced : SourcesPlaced db)
    (hids : NewSignalIds db ids)
    (hrejected : Along (repost signals) (Rejected signals) db (attempts ids failed)) :
    let final := (attempts ids failed).foldl (repost signals) db
    (SourcesPlaced final ∧ NewSignalIds final (fun b => ids (b + failed.length)) ∧
      final.signalSources = db.signalSources) ∧ stored db ≤ stored final ∧
      (stored final = stored db ↔ ∀ failures ∈ failed, FailsEarly db signals failures) ∧
      (Along (repost signals) (Untouched signals) db (attempts ids failed) ↔
        ∀ failures ∈ failed, FailsEarly db signals failures) := by
  intro final
  induction failed generalizing db ids with
  | nil =>
      refine ⟨⟨hplaced, hids, rfl⟩, le_rfl, ?_, ?_⟩
      · simp [final, attempts]
      · simp [attempts, Along]
  | cons failures rest ih =>
      obtain ⟨⟨hplaced', hids', hsources'⟩, hle, heq, huntouched⟩ :=
        rejected_post hplaced hids hrejected.1
      obtain ⟨⟨hplaced'', hids'', hsources''⟩, hle', heq', huntouched'⟩ :=
        ih hplaced' hids' hrejected.2
      simp only [failsEarly_congr hsources'] at heq' huntouched'
      refine ⟨⟨hplaced'', ?_, hsources''.trans hsources'⟩, hle.trans hle', ?_, ?_⟩
      · exact hids''
      · rw [List.forall_mem_cons, ← heq, ← heq']
        have hmid : stored (repost signals db ⟨failures, ids 0⟩) ≤ stored final := hle'
        constructor
        · intro hfinal
          exact ⟨le_antisymm (hmid.trans hfinal.le) hle,
            le_antisymm (hfinal.le.trans hle) hmid⟩
        · rintro ⟨hfirst, hrest⟩
          exact hrest.trans hfirst
      · rw [List.forall_mem_cons, ← huntouched, ← huntouched']
        rfl

/-- Posts that all leave the tables alone end with the tables of the start. -/
theorem untouched_run {run : List Attempt}
    (h : Along (repost signals) (Untouched signals) db run) :
    (run.foldl (repost signals) db).machineEvents = db.machineEvents ∧
      (run.foldl (repost signals) db).productionCounts = db.productionCounts := by
  apply h.invariant (I := fun s => s.machineEvents = db.machineEvents ∧
    s.productionCounts = db.productionCounts)
  · intro s a hs hstep
    exact ⟨hstep.1.trans hs.1, hstep.2.trans hs.2⟩
  · exact ⟨rfl, rfl⟩

theorem batch_congr {db' : Database} (h : db'.signalSources = db.signalSources)
    (signals : List RawSignal) :
    batchEvents db' signals = batchEvents db signals ∧
      batchCounts db' signals = batchCounts db signals := by
  unfold batchEvents batchCounts enabledSignals
  simp only [resolveSource_congr h, and_self]

/-- A batch that is accepted on tables without a rest of an earlier post is stored once. -/
theorem StoredOnce.congr {mid db' : Database} (hevents : mid.machineEvents = db.machineEvents)
    (hcounts : mid.productionCounts = db.productionCounts)
    (hsources : mid.signalSources = db.signalSources) (h : StoredOnce signals mid db') :
    StoredOnce signals db db' := by
  obtain ⟨events, counts, good, scrap⟩ := h
  obtain ⟨hbatchEvents, hbatchCounts⟩ := batch_congr hsources signals
  rw [hbatchEvents, hevents] at events
  rw [hbatchCounts, hcounts] at counts
  simp only [hbatchCounts, goodCount, countsIn, hcounts] at good
  simp only [hbatchCounts, hcounts] at scrap
  exact ⟨events, counts, good, scrap⟩

/-- A batch that was stored once has added one row for each of its enabled signals. -/
theorem StoredOnce.stored_eq {db' : Database} (h : StoredOnce signals db db') :
    stored db' = stored db + (batchEvents db signals).length + (batchCounts db signals).length := by
  have hevents := congrArg List.length h.events
  have hcounts := congrArg List.length h.counts
  simp only [List.length_map, List.length_append] at hevents hcounts
  unfold stored
  omega

/-- A batch that was rejected any number of times can be retried safely exactly when each
of these posts failed before it had committed an insert. -/
theorem retries_iff {failed : List (Failures)} (hplaced : SourcesPlaced db)
    (hids : NewSignalIds db ids)
    (hrejected : Along (repost signals) (Rejected signals) db (attempts ids failed)) :
    (Along (repost signals) (Untouched signals) db (attempts ids failed) ↔
        ∀ failures ∈ failed, FailsEarly db signals failures) ∧
      ∀ last : Failures,
        let final := (attempts ids failed).foldl (repost signals) db
        Accepted signals final ⟨last, ids failed.length⟩ →
          (StoredOnce signals db (repost signals final ⟨last, ids failed.length⟩) ↔
            ∀ failures ∈ failed, FailsEarly db signals failures) := by
  obtain ⟨⟨hplaced', hids', hsources⟩, -, hstored, huntouched⟩ :=
    rejected_run hplaced hids hrejected
  refine ⟨huntouched, ?_⟩
  intro last final haccepted
  have hfinal : StoredOnce signals final (repost signals final ⟨last, ids failed.length⟩) := by
    obtain ⟨res, hres⟩ := haccepted
    have hcases := post_cases hplaced' hids' last signals
    rw [Nat.zero_add] at hcases
    rcases hcases with ⟨-, happ⟩ | ⟨⟨e, he⟩, -⟩
    · exact storedOnce_of_appended happ
    · rw [hres] at he
      cases he
  constructor
  · intro honce
    rw [← hstored]
    have hlength := hfinal.stored_eq
    obtain ⟨hbatchEvents, hbatchCounts⟩ := batch_congr hsources signals
    rw [honce.stored_eq, hbatchEvents, hbatchCounts] at hlength
    change stored final = stored db
    omega
  · intro hearly
    obtain ⟨hevents, hcounts⟩ := untouched_run (huntouched.mpr hearly)
    exact hfinal.congr hevents hcounts hsources

/-- The connection is lost at a statement. -/
def cutOff (n : ℕ) (committed : Bool) : Failures := fun k =>
  if k = n then some ⟨mapSqlxPlain (.other "connection closed"), committed⟩ else none

/-- Two counts of one source: a lookup and two inserts. -/
def twoCounts : List RawSignal := [⟨"plc", 1000000, .count 5 1⟩, ⟨"plc", 2000000, .count 3 0⟩]

theorem sourcesPlaced_sensedFloor : SourcesPlaced sensedFloor := by
  have hplaced : ∀ s ∈ sensedFloor.signalSources.rows,
      (sensedFloor.workCenters.lookup s.workCenterId).isSome = true := by decide
  exact hplaced

/-- Cut off at its second insert, the batch counts five good parts twice when it is posted
again. -/
theorem lateFailure_counts_twice :
    ¬ ∀ (db : Database) (ids : ℕ → ℕ → String) (signals : List RawSignal)
        (failed : List (Failures)), SourcesPlaced db → NewSignalIds db ids →
      Along (repost signals) (Rejected signals) db (attempts ids failed) →
      Along (repost signals) (Untouched signals) db (attempts ids failed) ∧
        ∀ last : Failures,
          let final := (attempts ids failed).foldl (repost signals) db
          Accepted signals final ⟨last, ids failed.length⟩ →
            StoredOnce signals db (repost signals final ⟨last, ids failed.length⟩) := by
  intro hall
  have hrejected : Along (repost twoCounts) (Rejected twoCounts) sensedFloor
      (attempts (batchIds 'x') [cutOff 2 false]) := ⟨⟨_, rfl⟩, trivial⟩
  obtain ⟨-, honce⟩ := hall sensedFloor (batchIds 'x') twoCounts [cutOff 2 false]
    sourcesPlaced_sensedFloor (newSignalIds_sensedFloor (by decide)) hrejected
  have hgood := (honce Faults.never ⟨_, rfl⟩).good "press" ⟨0, 10000000⟩
  exact absurd hgood (by decide +kernel)

/-- Cut off at its first insert, the batch is stored once when it is posted again. -/
theorem earlyFailure_stored_once :
    StoredOnce twoCounts sensedFloor
      (repost twoCounts
        ((attempts (batchIds 'x') [cutOff 1 false]).foldl (repost twoCounts) sensedFloor)
        ⟨.never, batchIds 'x' 1⟩) := by
  have hrejected : Along (repost twoCounts) (Rejected twoCounts) sensedFloor
      (attempts (batchIds 'x') [cutOff 1 false]) := ⟨⟨_, rfl⟩, trivial⟩
  have hearly : ∀ failures ∈ [cutOff 1 false], FailsEarly sensedFloor twoCounts failures := by
    intro failures hfailures
    rw [List.mem_singleton.mp hfailures]
    exact ⟨1, _, rfl, by decide +kernel⟩
  exact ((retries_iff sourcesPlaced_sensedFloor (newSignalIds_sensedFloor (by decide))
    hrejected).2 Faults.never ⟨_, rfl⟩).mpr hearly

end Retries

end ElectronixMes.Derived.Retries
