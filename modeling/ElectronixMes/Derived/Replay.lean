import ElectronixMes.Derived.Idempotence
import ElectronixMes.Edge.Ingest

/-!
# Signal order and replay

What a recompute writes depends on the stored pulses only through the set of
their instants: the fetch sorts them and the debounce pass drops a repeated
instant wherever it stands. A batch adds to that set exactly the cycle signals
of enabled sources, so the order, the batch split and the number of deliveries
leave no trace in the derived rows.
-/

namespace ElectronixMes.Derived

open Db ElectronixMes.Core Edge Relational Timeline

/-- The foreign key of the source registry: every source stands at a stored
work center. -/
def SourcesPlaced (db : Database) : Prop :=
  ∀ s ∈ db.signalSources, (db.workCenters.lookup s.workCenterId).isSome

/-- Ids generated for the stored signals, by batch and draw: no two are equal and
none is in use. -/
structure NewSignalIds (db : Database) (ids : ℕ → ℕ → String) : Prop where
  injective : ∀ b k b' k', ids b k = ids b' k' → b = b' ∧ k = k'
  events : ∀ b k, ∀ r ∈ db.machineEvents, r.id ≠ ids b k
  counts : ∀ b k, ∀ r ∈ db.productionCounts, r.id ≠ ids b k

/-- A sequence of batches, each a request of its own. -/
def ingestBatches : (ℕ → ℕ → String) → Database → List (List RawSignal) → Database
  | _, db, [] => db
  | ids, db, signals :: rest =>
      ingestBatches (fun b => ids (b + 1)) (ingestSignals db (ids 0) signals).1 rest

/-- A cycle pulse of the work center is stored at this instant. -/
def StoredCycle (db : Database) (wc : String) (t : Int) : Prop :=
  ∃ r ∈ db.machineEvents, r.workCenterId = wc ∧ r.eventType = "cycle" ∧ r.ts = t

/-- A cycle signal from an enabled source of the work center. -/
def Pulses (db : Database) (wc : String) (sig : RawSignal) : Prop :=
  sig.event = .cycle ∧ ∃ source, resolveSource db sig.sourceKey = some source ∧
    source.enabled = true ∧ source.workCenterId = wc

/-- Some batch carries a pulse of the work center at this instant. -/
def PulseAt (db : Database) (wc : String) (batches : List (List RawSignal)) (t : Int) : Prop :=
  ∃ signals ∈ batches, ∃ sig ∈ signals, Pulses db wc sig ∧ sig.ts = t

section Intake

theorem signalsOnly_trans {a b c : Database}
    (hab : b = { a with
      machineEvents := b.machineEvents
      productionCounts := b.productionCounts })
    (hbc : c = { b with
      machineEvents := c.machineEvents
      productionCounts := c.productionCounts }) :
    c = { a with
      machineEvents := c.machineEvents
      productionCounts := c.productionCounts } := by
  refine hbc.trans ?_
  rw [hab]

variable {db : Database} {ids : ℕ → ℕ → String} {st : Intake}

/-- The id belongs neither to a later draw of the running batch nor to a later batch. -/
def Drawn (ids : ℕ → ℕ → String) (n : ℕ) (id : String) : Prop :=
  (∀ k, n ≤ k → id ≠ ids 0 k) ∧ ∀ b k, id ≠ ids (b + 1) k

/-- The loop of a batch that started on `db`: the cache tells what the registry
says, only the two signal tables have grown, and no later id is in use. -/
structure IntakeOk (db : Database) (ids : ℕ → ℕ → String) (st : Intake) : Prop where
  cache : ∀ key s, st.cache key = some s → s = resolveSource db key
  frame : st.db = { db with
    machineEvents := st.db.machineEvents
    productionCounts := st.db.productionCounts }
  events : ∀ r ∈ st.db.machineEvents, Drawn ids st.accepted r.id
  counts : ∀ r ∈ st.db.productionCounts, Drawn ids st.accepted r.id

theorem Drawn.succ {n : ℕ} {id : String} (h : Drawn ids n id) : Drawn ids (n + 1) id :=
  ⟨fun k hk => h.1 k (Nat.le_of_succ_le hk), h.2⟩

theorem NewSignalIds.drawn (h : NewSignalIds db ids) (n : ℕ) : Drawn ids (n + 1) (ids 0 n) := by
  refine ⟨?_, ?_⟩
  · intro k hk heq
    have hnk := (h.injective 0 n 0 k heq).2
    omega
  · intro b k heq
    have hb := (h.injective 0 n (b + 1) k heq).1
    omega

theorem IntakeOk.signalSources (h : IntakeOk db ids st) :
    st.db.signalSources = db.signalSources := by
  rw [h.frame]

theorem IntakeOk.source (h : IntakeOk db ids st) (key : String) :
    st.source key = resolveSource db key :=
  Intake.source_eq h.cache h.signalSources key

/-- The row of a stored signal is a pulse exactly when the signal is a cycle. -/
theorem storedCycle_of_stored {db db' : Database} {id : String} {source : SignalSourceRow}
    {sig : RawSignal}
    (hevents : ∀ r, r ∈ db'.machineEvents ↔ r ∈ db.machineEvents ∨
      (sig.event = .cycle ∨ sig.event = .heartbeat) ∧
        r = ⟨id, toSql sig.ts, source.workCenterId, some source.id, sig.event.eventType⟩)
    (wc : String) (t : Int) :
    StoredCycle db' wc t ↔ StoredCycle db wc t ∨
      (sig.event = .cycle ∧ source.workCenterId = wc) ∧ toSql sig.ts = t := by
  constructor
  · rintro ⟨r, hr, hrwc, hkind, rfl⟩
    rcases (hevents r).mp hr with hr | ⟨hevent, rfl⟩
    · exact Or.inl ⟨r, hr, hrwc, hkind, rfl⟩
    · rcases hevent with hcycle | hbeat
      · exact Or.inr ⟨⟨hcycle, hrwc⟩, rfl⟩
      · rw [hbeat] at hkind
        simp [SignalEvent.eventType] at hkind
  · rintro (⟨r, hr, hrest⟩ | ⟨⟨hcycle, hwc⟩, rfl⟩)
    · exact ⟨r, (hevents r).mpr (Or.inl hr), hrest⟩
    · refine ⟨_, (hevents _).mpr (Or.inr ⟨Or.inl hcycle, rfl⟩), hwc, ?_, rfl⟩
      rw [hcycle]
      rfl

theorem pulses_of_resolved {db : Database} {wc : String} {sig : RawSignal}
    {source : SignalSourceRow} (hresolve : resolveSource db sig.sourceKey = some source)
    (henabled : source.enabled = true) :
    Pulses db wc sig ↔ sig.event = .cycle ∧ source.workCenterId = wc := by
  constructor
  · rintro ⟨hcycle, s, hs, -, hwc⟩
    rw [hresolve, Option.some.injEq] at hs
    subst hs
    exact ⟨hcycle, hwc⟩
  · rintro ⟨hcycle, hwc⟩
    exact ⟨hcycle, source, hresolve, henabled, hwc⟩

/-- A round never fails, and it stores a pulse exactly when the signal is one. -/
theorem IntakeOk.ingest (hplaced : SourcesPlaced db) (hids : NewSignalIds db ids)
    (h : IntakeOk db ids st) (sig : RawSignal) :
    ∃ st', st.ingest (ids 0) sig = .ok st' ∧ IntakeOk db ids st' ∧
      ∀ wc t, StoredCycle st'.db wc t ↔
        StoredCycle st.db wc t ∨ Pulses db wc sig ∧ toSql sig.ts = t := by
  have hupdate := Intake.cache_update h.cache h.signalSources sig.sourceKey
  have hsource := h.source sig.sourceKey
  cases hfilter : (st.source sig.sourceKey).filter SignalSourceRow.enabled with
  | none =>
      refine ⟨{ st with
        cache := Function.update st.cache sig.sourceKey (some (st.source sig.sourceKey))
        dropped := st.dropped + 1 }, ?_, ⟨hupdate, h.frame, h.events, h.counts⟩, ?_⟩
      · simp only [Intake.ingest, hfilter]
      intro wc t
      refine ⟨Or.inl, ?_⟩
      rintro (hstored | ⟨⟨-, source, hresolve, henabled, -⟩, -⟩)
      · exact hstored
      · rw [hsource, hresolve] at hfilter
        simp [henabled] at hfilter
  | some source =>
      obtain ⟨hresolve, henabled⟩ := Option.filter_eq_some_iff.mp hfilter
      rw [hsource] at hresolve
      have hmem := mem_of_resolveSource hresolve
      have hwc := hplaced source hmem
      -- the registry and the work centers are those the batch started with
      have hmem' : source ∈ st.db.signalSources := by
        rw [h.frame]
        exact hmem
      have hwc' : (st.db.workCenters.lookup source.workCenterId).isSome := by
        rw [h.frame]
        exact hwc
      obtain ⟨db', hstore, hframe, hevents, hcounts⟩ :=
        storeSignal_ok sig hwc' hmem'
          (fun r hr => (h.events r hr).1 st.accepted le_rfl)
          (fun r hr => (h.counts r hr).1 st.accepted le_rfl)
      refine ⟨{
        db := db'
        cache := Function.update st.cache sig.sourceKey (some (st.source sig.sourceKey))
        accepted := st.accepted + 1
        dropped := st.dropped }, ?_, ⟨hupdate, ?_, ?_, ?_⟩, ?_⟩
      · simp only [Intake.ingest, hfilter, hstore]
      · exact signalsOnly_trans h.frame hframe
      · intro r hr
        rcases (hevents r).mp hr with hr | ⟨-, rfl⟩
        · exact (h.events r hr).succ
        · exact hids.drawn st.accepted
      · intro r hr
        rcases hcounts r hr with hr | hid
        · exact (h.counts r hr).succ
        · rw [hid]
          exact hids.drawn st.accepted
      · intro wc t
        rw [pulses_of_resolved hresolve henabled]
        exact storedCycle_of_stored hevents wc t

theorem ingestLoop_ok (hplaced : SourcesPlaced db) (hids : NewSignalIds db ids)
    (signals : List RawSignal) (h : IntakeOk db ids st) :
    ∃ st', (ingestLoop (ids 0) st signals).1 = st'.db ∧ IntakeOk db ids st' ∧
      ∀ wc t, StoredCycle st'.db wc t ↔
        StoredCycle st.db wc t ∨ ∃ sig ∈ signals, Pulses db wc sig ∧ toSql sig.ts = t := by
  induction signals generalizing st with
  | nil => exact ⟨st, rfl, h, by simp⟩
  | cons sig rest ih =>
      obtain ⟨mid, hmid, hok, hstored⟩ := h.ingest hplaced hids sig
      obtain ⟨st', heq, hok', hrest⟩ := ih hok
      refine ⟨st', ?_, hok', ?_⟩
      · unfold ingestLoop
        rw [hmid]
        exact heq
      · intro wc t
        rw [hrest, hstored, or_assoc, List.exists_mem_cons_iff]

/-- The cache is empty before the first signal, and no drawn id is in use. -/
theorem intakeOk_start (hids : NewSignalIds db ids) :
    IntakeOk db ids { db, cache := fun _ => none, accepted := 0, dropped := 0 } := by
  refine ⟨?_, rfl, ?_, ?_⟩
  · intro key s hs
    cases hs
  · intro r hr
    exact ⟨fun k _ => hids.events 0 k r hr, fun b k => hids.events (b + 1) k r hr⟩
  · intro r hr
    exact ⟨fun k _ => hids.counts 0 k r hr, fun b k => hids.counts (b + 1) k r hr⟩

/-- A batch on new ids is accepted. -/
theorem ingestSignals_isOk (hplaced : SourcesPlaced db) (hids : NewSignalIds db ids)
    (signals : List RawSignal) : ∃ res, (ingestSignals db (ids 0) signals).2 = .ok res := by
  have hloop (st : Intake) (h : IntakeOk db ids st) :
      ∃ res, (ingestLoop (ids 0) st signals).2 = .ok res := by
    induction signals generalizing st with
    | nil => exact ⟨_, rfl⟩
    | cons sig rest ih =>
        obtain ⟨mid, hmid, hok, -⟩ := h.ingest hplaced hids sig
        unfold ingestLoop
        rw [hmid]
        exact ih mid hok
  exact hloop _ (intakeOk_start hids)

/-- A batch on new ids stores the pulses it carries and leaves every other table
alone; the ids of the later batches stay unused. -/
theorem ingestSignals_ok (hplaced : SourcesPlaced db) (hids : NewSignalIds db ids)
    (signals : List RawSignal) :
    let db' := (ingestSignals db (ids 0) signals).1
    db' = { db with
      machineEvents := db'.machineEvents
      productionCounts := db'.productionCounts } ∧
    NewSignalIds db' (fun b => ids (b + 1)) ∧
    ∀ wc t, StoredCycle db' wc t ↔
      StoredCycle db wc t ∨ ∃ sig ∈ signals, Pulses db wc sig ∧ toSql sig.ts = t := by
  intro db'
  obtain ⟨st', heq, hok, hstored⟩ := ingestLoop_ok hplaced hids signals (intakeOk_start hids)
  have hdb : db' = st'.db := heq
  rw [hdb]
  refine ⟨hok.frame, ⟨?_, ?_, ?_⟩, hstored⟩
  · intro b k b' k' h
    have hinj := hids.injective _ _ _ _ h
    exact ⟨by omega, hinj.2⟩
  · intro b k r hr
    exact (hok.events r hr).2 b k
  · intro b k r hr
    exact (hok.counts r hr).2 b k

/-- The pulses of the batches as their instants are bound. -/
theorem pulseAt_bound {db : Database} {wc : String} {batches : List (List RawSignal)} {m : Int} :
    (∃ t, PulseAt db wc batches t ∧ toSql t = m) ↔
      ∃ signals ∈ batches, ∃ sig ∈ signals, Pulses db wc sig ∧ toSql sig.ts = m := by
  constructor
  · rintro ⟨t, ⟨signals, hsignals, sig, hsig, hpulse, rfl⟩, hm⟩
    exact ⟨signals, hsignals, sig, hsig, hpulse, hm⟩
  · rintro ⟨signals, hsignals, sig, hsig, hpulse, hm⟩
    exact ⟨sig.ts, ⟨signals, hsignals, sig, hsig, hpulse, rfl⟩, hm⟩

theorem ingestBatches_ok (hplaced : SourcesPlaced db) (hids : NewSignalIds db ids)
    (batches : List (List RawSignal)) :
    let db' := ingestBatches ids db batches
    db' = { db with
      machineEvents := db'.machineEvents
      productionCounts := db'.productionCounts } ∧
    ∀ wc m, StoredCycle db' wc m ↔
      StoredCycle db wc m ∨ ∃ t, PulseAt db wc batches t ∧ toSql t = m := by
  induction batches generalizing db ids with
  | nil => exact ⟨rfl, by simp [ingestBatches, PulseAt]⟩
  | cons signals rest ih =>
      obtain ⟨hframe, hids', hstored⟩ := ingestSignals_ok hplaced hids signals
      generalize hmid : (ingestSignals db (ids 0) signals).1 = mid at hframe hids' hstored
      have hplaced' : SourcesPlaced mid := by
        rw [hframe]
        exact hplaced
      have hpulses (wc : String) (sig : RawSignal) : Pulses mid wc sig ↔ Pulses db wc sig := by
        rw [hframe]
        rfl
      obtain ⟨hframe', hrest⟩ := ih hplaced' hids'
      have hunfold : ingestBatches ids db (signals :: rest) =
          ingestBatches (fun b => ids (b + 1)) mid rest := by
        rw [← hmid]
        rfl
      rw [hunfold]
      refine ⟨?_, ?_⟩
      · exact signalsOnly_trans hframe hframe'
      · intro wc m
        rw [hrest, hstored, or_assoc, pulseAt_bound, pulseAt_bound]
        simp only [hpulses, List.exists_mem_cons_iff]

end Intake

section Recompute

variable {db db₁ db₂ : Database} {wc : String}

theorem fetchCyclePulses_sorted (db : Database) (wc : String) (start finish : Int) :
    (fetchCyclePulses db wc start finish).Pairwise (· ≤ ·) :=
  List.pairwise_map.mpr ((List.pairwise_insertionSort _ _).imp ofSql_le.mpr)

theorem mem_fetchCyclePulses_iff {start finish t : Int} :
    t ∈ fetchCyclePulses db wc start finish ↔
      ∃ m, ofSql m = t ∧ StoredCycle db wc m ∧ toSql start ≤ m ∧ m ≤ toSql finish := by
  unfold fetchCyclePulses StoredCycle
  simp only [List.mem_map, List.mem_insertionSort, List.mem_filter, Table.mem_rows,
    decide_eq_true_eq]
  constructor
  · rintro ⟨m, ⟨r, ⟨hr, hwc, hkind, hlo, hhi⟩, rfl⟩, rfl⟩
    exact ⟨_, rfl, ⟨r, hr, hwc, hkind, rfl⟩, hlo, hhi⟩
  · rintro ⟨m, rfl, ⟨r, hr, hwc, hkind, rfl⟩, hlo, hhi⟩
    exact ⟨_, ⟨r, ⟨hr, hwc, hkind, hlo, hhi⟩, rfl⟩, rfl⟩

/-- The timeline is a function of the stored instants and the planned stops. -/
theorem computedStates_eq_of_storedCycle (hstops : db₁.plannedStops = db₂.plannedStops)
    (hstored : ∀ t, StoredCycle db₁ wc t ↔ StoredCycle db₂ wc t) (start finish : Int) :
    computedStates db₁ wc start finish = computedStates db₂ wc start finish := by
  have hpulses : debounce (fetchCyclePulses db₁ wc start finish) StateConfig.default.debounce =
      debounce (fetchCyclePulses db₂ wc start finish) StateConfig.default.debounce := by
    apply debounce_eq_of_mem_iff (by decide)
    · exact fetchCyclePulses_sorted db₁ wc start finish
    · exact fetchCyclePulses_sorted db₂ wc start finish
    · intro t
      simp only [mem_fetchCyclePulses_iff, hstored]
  have hplanned : fetchPlannedIntervals db₁ wc start finish =
      fetchPlannedIntervals db₂ wc start finish := by
    unfold fetchPlannedIntervals
    rw [hstops]
  unfold computedStates computeStates
  rw [hpulses, hplanned]

end Recompute

/-- Two sequences of batches whose pulses of a work center stand at the same
instants lead, over any window, to the same machine states and downtime events
up to generated ids. -/
theorem recompute_of_same_pulses (db : Database) (hplaced : SourcesPlaced db)
    (batches₁ batches₂ : List (List RawSignal)) (ids₁ ids₂ : ℕ → ℕ → String)
    (hids₁ : NewSignalIds db ids₁) (hids₂ : NewSignalIds db ids₂) (wc : String)
    (hsame : ∀ t, PulseAt db wc batches₁ t ↔ PulseAt db wc batches₂ t) (start finish : Int)
    (out₁ out₂ : ℕ → String) (hout₁ : NewIds db out₁) (hout₂ : NewIds db out₂) :
    let after₁ := afterRecompute (ingestBatches ids₁ db batches₁) wc start finish out₁
    let after₂ := afterRecompute (ingestBatches ids₂ db batches₂) wc start finish out₂
    statesContent after₁ = statesContent after₂ ∧
      downtimeContent after₁ = downtimeContent after₂ := by
  intro after₁ after₂
  obtain ⟨hframe₁, hstored₁⟩ := ingestBatches_ok hplaced hids₁ batches₁
  obtain ⟨hframe₂, hstored₂⟩ := ingestBatches_ok hplaced hids₂ batches₂
  have hstates₁ := congrArg Database.machineStates hframe₁
  have hstates₂ := congrArg Database.machineStates hframe₂
  have hdowntime₁ := congrArg Database.downtimeEvents hframe₁
  have hdowntime₂ := congrArg Database.downtimeEvents hframe₂
  have hcenters₁ := congrArg Database.workCenters hframe₁
  have hcenters₂ := congrArg Database.workCenters hframe₂
  have hstops₁ := congrArg Database.plannedStops hframe₁
  have hstops₂ := congrArg Database.plannedStops hframe₂
  dsimp only at hstates₁ hstates₂ hdowntime₁ hdowntime₂ hcenters₁ hcenters₂ hstops₁ hstops₂
  apply content_afterRecompute
  · rw [hstates₁, hstates₂]
  · rw [hdowntime₁, hdowntime₂]
  · rw [hcenters₁, hcenters₂]
  · apply computedStates_eq_of_storedCycle
    · rw [hstops₁, hstops₂]
    · intro t
      simp only [hstored₁, hstored₂, hsame]
  · exact ⟨hout₁.injective, hstates₁ ▸ hout₁.states, hdowntime₁ ▸ hout₁.downtime⟩
  · exact ⟨hout₂.injective, hstates₂ ▸ hout₂.states, hdowntime₂ ▸ hout₂.downtime⟩

/-- The press with a line controller that is enabled and a spare one that is not. -/
def sensedFloor : Database :=
  { classifiedFloor with
    signalSources :=
      ⟨[⟨"s1", "press", "plc", "cycle", true⟩, ⟨"s2", "press", "spare", "cycle", false⟩],
        by decide⟩ }

/-- In order, with one pulse delivered twice and one from the spare controller. -/
def firstDelivery : List (List RawSignal) :=
  [[⟨"plc", 1000000000, .cycle⟩, ⟨"plc", 1000000000, .cycle⟩, ⟨"spare", 4000000000, .cycle⟩],
    [⟨"plc", 90000000000, .cycle⟩, ⟨"plc", 5000000000, .heartbeat⟩]]

/-- The same pulses in reverse order and in one batch. -/
def secondDelivery : List (List RawSignal) :=
  [[⟨"plc", 90000000000, .cycle⟩, ⟨"plc", 2000000000, .count 3 0⟩, ⟨"plc", 1000000000, .cycle⟩]]

/-- One family of ids for each letter: the batch counts the letter, the draw the hashes. -/
def batchIds (letter : Char) (b k : ℕ) : String :=
  String.ofList (List.replicate (b + 1) letter ++ List.replicate (k + 1) '#')

theorem newSignalIds_sensedFloor {letter : Char} (hletter : letter ≠ '#') :
    NewSignalIds sensedFloor (batchIds letter) := by
  constructor
  · intro b k b' k' h
    have hchars : List.replicate (b + 1) letter ++ List.replicate (k + 1) '#' =
        List.replicate (b' + 1) letter ++ List.replicate (k' + 1) '#' :=
      String.ofList_injective h
    have hlen := congrArg List.length hchars
    have hcount := congrArg (List.count '#') hchars
    simp [List.count_replicate, hletter] at hlen hcount
    omega
  · intro b k r hr heq
    have hash : '#' ∈ r.id.toList := by simp [heq, batchIds]
    have hnone : ∀ r ∈ sensedFloor.machineEvents.rows, '#' ∉ r.id.toList := by decide
    exact hnone r hr hash
  · intro b k r hr
    cases hr

theorem newIds_sensedFloor : NewIds sensedFloor (letterIds 'a') :=
  ⟨newIds_classifiedFloor.injective, newIds_classifiedFloor.states,
    newIds_classifiedFloor.downtime⟩

theorem recompute_of_same_pulses_sensedFloor :
    let after₁ := afterRecompute (ingestBatches (batchIds 'x') sensedFloor firstDelivery)
      "press" 0 100000000000 (letterIds 'a')
    let after₂ := afterRecompute (ingestBatches (batchIds 'y') sensedFloor secondDelivery)
      "press" 0 100000000000 (letterIds 'a')
    after₁.machineStates.rows.length = 3 ∧ statesContent after₁ = statesContent after₂ ∧
      downtimeContent after₁ = downtimeContent after₂ := by
  refine ⟨by decide +kernel, ?_⟩
  apply recompute_of_same_pulses sensedFloor _ firstDelivery secondDelivery (batchIds 'x')
    (batchIds 'y') (newSignalIds_sensedFloor (by decide))
    (newSignalIds_sensedFloor (by decide)) "press" _ 0 100000000000 (letterIds 'a') (letterIds 'a')
  · exact newIds_sensedFloor
  · exact newIds_sensedFloor
  · have hplaced : ∀ s ∈ sensedFloor.signalSources.rows,
        (sensedFloor.workCenters.lookup s.workCenterId).isSome = true := by decide
    exact hplaced
  · intro t
    simp [PulseAt, Pulses, firstDelivery, secondDelivery, resolveSource, sensedFloor, or_comm]

end ElectronixMes.Derived
