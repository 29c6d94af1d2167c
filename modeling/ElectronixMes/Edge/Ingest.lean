import ElectronixMes.Db.RepoIngest

/-!
# Signal intake

Devices post batches of signals. A batch looks up each source once and keeps
the answer; signals of unknown and disabled sources are counted as dropped.
Every stored signal is a statement of its own, so a batch that fails midway
leaves the signals stored before it.
-/

namespace ElectronixMes.Edge

open Db Relational

/-- The kind of a signal. -/
inductive SignalEvent where
  | cycle
  | heartbeat
  | count (good scrap : Int32)
  deriving DecidableEq

/-- The `event_type` a signal is stored with. -/
def SignalEvent.eventType : SignalEvent → String
  | cycle => "cycle"
  | heartbeat => "heartbeat"
  | count _ _ => "count"

structure RawSignal where
  sourceKey : String
  ts : Int
  event : SignalEvent
  deriving DecidableEq

structure IngestResult where
  accepted : ℕ
  dropped : ℕ
  deriving DecidableEq

/-- Persist one signal of a known source under a drawn id. -/
def storeSignal (db : Database) (id : String) (source : SignalSourceRow) (sig : RawSignal) :
    Except RepoError Database :=
  match sig.event with
  | .cycle | .heartbeat =>
      insertMachineEvent db id sig.ts source.workCenterId source.id sig.event.eventType
  | .count good scrap =>
      insertProductionCount db id sig.ts source.workCenterId source.id good scrap

/-- The variables of the loop over a batch. -/
structure Intake where
  db : Database
  cache : String → Option (Option SignalSourceRow)
  accepted : ℕ
  dropped : ℕ

/-- The source of a signal, from the cache when it was looked up before. -/
def Intake.source (st : Intake) (sourceKey : String) : Option SignalSourceRow :=
  match st.cache sourceKey with
  | some s => s
  | none => resolveSource st.db sourceKey

/-- One round of the loop. Each accepted signal draws one id. -/
def Intake.ingest (ids : ℕ → String) (st : Intake) (sig : RawSignal) : Except ApiErr Intake :=
  let source := st.source sig.sourceKey
  let cache := Function.update st.cache sig.sourceKey (some source)
  match source.filter SignalSourceRow.enabled with
  | none => .ok { st with cache, dropped := st.dropped + 1 }
  | some source =>
      match storeSignal st.db (ids st.accepted) source sig with
      | .error e => .error (repoErr e)
      | .ok db => .ok { db, cache, accepted := st.accepted + 1, dropped := st.dropped }

def ingestLoop (ids : ℕ → String) : Intake → List RawSignal →
    Database × Except ApiErr IngestResult
  | st, [] => (st.db, .ok ⟨st.accepted, st.dropped⟩)
  | st, sig :: rest =>
      match st.ingest ids sig with
      | .error e => (st.db, .error e)
      | .ok st => ingestLoop ids st rest

/-- Accept a batch of raw signals. -/
def ingestSignals (db : Database) (ids : ℕ → String) (signals : List RawSignal) :
    Database × Except ApiErr IngestResult :=
  ingestLoop ids { db, cache := fun _ => none, accepted := 0, dropped := 0 } signals

section Store

variable {db : Database} {id : String} {source : SignalSourceRow}

theorem signalRefs_ok (table : String) (hwc : (db.workCenters.lookup source.workCenterId).isSome)
    (hsource : source ∈ db.signalSources) :
    signalRefs db table source.workCenterId source.id = .ok () := by
  have hlookup : db.signalSources.lookup source.id = some source := Table.lookup_of_mem hsource
  simp only [signalRefs, optionalRef, hwc, hlookup, Option.isSome_some, if_true]
  rfl

/-- A signal of a placed source whose drawn id is unused is stored, as one row of
the table its kind goes to; nothing else changes. -/
theorem storeSignal_ok (sig : RawSignal)
    (hwc : (db.workCenters.lookup source.workCenterId).isSome)
    (hsource : source ∈ db.signalSources) (hevents : ∀ r ∈ db.machineEvents, r.id ≠ id)
    (hcounts : ∀ r ∈ db.productionCounts, r.id ≠ id) :
    ∃ db', storeSignal db id source sig = .ok db' ∧
      db' = { db with
        machineEvents := db'.machineEvents
        productionCounts := db'.productionCounts } ∧
      (∀ r, r ∈ db'.machineEvents ↔ r ∈ db.machineEvents ∨
        (sig.event = .cycle ∨ sig.event = .heartbeat) ∧
          r = ⟨id, toSql sig.ts, source.workCenterId, some source.id, sig.event.eventType⟩) ∧
      ∀ r ∈ db'.productionCounts, r ∈ db.productionCounts ∨ r.id = id := by
  have hrefs (table : String) := signalRefs_ok table hwc hsource
  have hevent (kind : String) : ∃ t, db.machineEvents.insert?
      ⟨id, toSql sig.ts, source.workCenterId, some source.id, kind⟩ = some t :=
    Table.exists_insert? fun s hs hkey => hevents s hs (congrArg Prod.snd hkey)
  cases hkind : sig.event with
  | count good scrap =>
      obtain ⟨t, ht⟩ : ∃ t, db.productionCounts.insert?
          ⟨id, toSql sig.ts, source.workCenterId, some source.id, good, scrap, none, none⟩ =
            some t :=
        Table.exists_insert? fun s hs hkey => hcounts s hs (congrArg Prod.snd hkey)
      refine ⟨{ db with productionCounts := t }, ?_, rfl, ?_, ?_⟩
      · simp only [storeSignal, hkind, insertProductionCount, ht, hrefs]
      · intro r
        simp
      · intro r hr
        rcases (Table.mem_insert? ht).mp hr with hr | rfl
        · exact Or.inl hr
        · exact Or.inr rfl
  | cycle =>
      obtain ⟨t, ht⟩ := hevent "cycle"
      refine ⟨{ db with machineEvents := t }, ?_, rfl, ?_, fun r hr => Or.inl hr⟩
      · simp only [storeSignal, hkind, insertMachineEvent, SignalEvent.eventType, ht, hrefs]
      · intro r
        simpa [SignalEvent.eventType] using Table.mem_insert? ht
  | heartbeat =>
      obtain ⟨t, ht⟩ := hevent "heartbeat"
      refine ⟨{ db with machineEvents := t }, ?_, rfl, ?_, fun r hr => Or.inl hr⟩
      · simp only [storeSignal, hkind, insertMachineEvent, SignalEvent.eventType, ht, hrefs]
      · intro r
        simpa [SignalEvent.eventType] using Table.mem_insert? ht

/-- A stored signal adds a machine event, or the production count it carries. -/
theorem storeSignal_cases {db' : Database} {sig : RawSignal}
    (h : storeSignal db id source sig = .ok db') :
    (∃ machineEvents, (sig.event = .cycle ∨ sig.event = .heartbeat) ∧
        db.machineEvents.insert?
          ⟨id, toSql sig.ts, source.workCenterId, some source.id, sig.event.eventType⟩
            = some machineEvents ∧
        db' = { db with machineEvents }) ∨
      ∃ good scrap productionCounts, sig.event = .count good scrap ∧
        db.productionCounts.insert?
          ⟨id, toSql sig.ts, source.workCenterId, some source.id, good, scrap, none, none⟩
            = some productionCounts ∧
        db' = { db with productionCounts } := by
  have hevent {kind : String}
      (h : insertMachineEvent db id sig.ts source.workCenterId source.id kind = .ok db') :
      ∃ machineEvents, db.machineEvents.insert?
          ⟨id, toSql sig.ts, source.workCenterId, some source.id, kind⟩ = some machineEvents ∧
        db' = { db with machineEvents } := by
    unfold insertMachineEvent at h
    split at h
    · cases h
    · rename_i events hins
      split at h
      · cases h
      · cases h
        exact ⟨events, hins, rfl⟩
  unfold storeSignal at h
  split at h
  · rename_i hkind
    obtain ⟨events, hins, hdb⟩ := hevent h
    exact Or.inl ⟨events, Or.inl hkind, hins, hdb⟩
  · rename_i hkind
    obtain ⟨events, hins, hdb⟩ := hevent h
    exact Or.inl ⟨events, Or.inr hkind, hins, hdb⟩
  · rename_i good scrap hkind
    unfold insertProductionCount at h
    split at h
    · cases h
    · rename_i counts hins
      split at h
      · cases h
      · cases h
        exact Or.inr ⟨good, scrap, counts, hkind, hins, rfl⟩

/-- A stored signal touches no operation, and a ledger row it adds belongs to none. -/
theorem storeSignal_unowned {db' : Database} {sig : RawSignal}
    (h : storeSignal db id source sig = .ok db') :
    db'.woOperations = db.woOperations ∧
      (db'.productionCounts = db.productionCounts ∨
        ∃ r : ProductionCountRow, r.woOperationId = none ∧
          db.productionCounts.insert? r = some db'.productionCounts) := by
  rcases storeSignal_cases h with ⟨_, -, -, rfl⟩ | ⟨_, _, counts, -, hins, rfl⟩
  · exact ⟨rfl, Or.inl rfl⟩
  · exact ⟨rfl, Or.inr ⟨_, rfl, hins⟩⟩

end Store

section Cache

variable {db : Database} {st : Intake}

/-- While the registry stays as it was, a cached answer is the registry's. -/
theorem Intake.source_eq (hcache : ∀ key s, st.cache key = some s → s = resolveSource db key)
    (hsources : st.db.signalSources = db.signalSources) (key : String) :
    st.source key = resolveSource db key := by
  unfold Intake.source
  cases hkey : st.cache key with
  | some s => exact hcache key s hkey
  | none =>
      dsimp only [resolveSource]
      rw [hsources]

/-- The lookup of a round goes into the cache and agrees with the registry. -/
theorem Intake.cache_update
    (hcache : ∀ key s, st.cache key = some s → s = resolveSource db key)
    (hsources : st.db.signalSources = db.signalSources) (key : String) :
    ∀ k s, Function.update st.cache key (some (st.source key)) k = some s →
      s = resolveSource db k := by
  intro k s hs
  by_cases hk : k = key
  · subst hk
    rw [Function.update_self, Option.some.injEq] at hs
    rw [← hs]
    exact Intake.source_eq hcache hsources k
  · rw [Function.update_of_ne hk] at hs
    exact hcache k s hs

/-- A round drops the signal, or stores it for the enabled source that its key names. -/
theorem Intake.ingest_cases {ids : ℕ → String} {st' : Intake} {sig : RawSignal}
    (h : st.ingest ids sig = .ok st') :
    st'.cache = Function.update st.cache sig.sourceKey (some (st.source sig.sourceKey)) ∧
      (st'.db = st.db ∨
        ∃ source, (st.source sig.sourceKey).filter SignalSourceRow.enabled = some source ∧
          storeSignal st.db (ids st.accepted) source sig = .ok st'.db) := by
  unfold Intake.ingest at h
  dsimp only at h
  split at h
  · cases h
    exact ⟨rfl, Or.inl rfl⟩
  · rename_i source hsource
    split at h
    · cases h
    · rename_i db hstore
      cases h
      exact ⟨rfl, Or.inr ⟨source, hsource, hstore⟩⟩

end Cache

end ElectronixMes.Edge
