import ElectronixMes.Derived.MachineStates
import ElectronixMes.Derived.OeeAgreement
import ElectronixMes.Edge.Exec
import ElectronixMes.Edge.Ingest

/-!
# OEE factors over whole runs

Signals are taken in, counts recorded and states recomputed, in any order, while all other
tables change arbitrarily. The availability of every window is a percentage because the
derived states are disjoint. Quality and performance are one as long as no stored count is
negative, which an operator's count is checked for and a device's is not.
-/

namespace ElectronixMes.Derived

open Db ElectronixMes.Core Edge Relational Timeline

/-- One step of a run. `other` changes every table but the two that OEE sums over. -/
inductive FloorOp where
  | ingest (ids : ℕ → String) (signals : List RawSignal)
  | count (now : Int) (id opId : String) (input : CountInput)
  | recompute (workCenterId : String) (start finish : Int) (ids : ℕ → String)
  | other (db : Database)

def floorStep (db : Database) : FloorOp → Database
  | .ingest ids signals => (ingestSignals db ids signals).1
  | .count now id opId input => (Edge.recordCount db now id opId input).1
  | .recompute wc start finish ids => afterRecompute db wc start finish ids
  | .other next =>
      { next with
        machineStates := db.machineStates
        productionCounts := db.productionCounts }

/-- A database in which nothing has been derived or counted yet. -/
def uncounted (db : Database) : Database := { underived db with productionCounts := ∅ }

/-- The database a run reaches. -/
def floorReached (db : Database) (ops : List FloorOp) : Database :=
  ops.foldl floorStep (uncounted db)

/-- The batch carries no negative count of a source that is registered and enabled. -/
def CountsSound (db : Database) (signals : List RawSignal) : Prop :=
  ∀ sig ∈ signals, ∀ good scrap, sig.event = .count good scrap →
    ((resolveSource db sig.sourceKey).filter SignalSourceRow.enabled).isSome →
      0 ≤ good ∧ 0 ≤ scrap

/-- Every batch of the run is taken in without a negative count. -/
def RunSound (db : Database) (ops : List FloorOp) : Prop :=
  ∀ before ids signals after, ops = before ++ .ingest ids signals :: after →
    CountsSound (floorReached db before) signals

/-- No stored count is negative. -/
def CountsNonneg (db : Database) : Prop :=
  ∀ r ∈ db.productionCounts, 0 ≤ r.good.toInt ∧ 0 ≤ r.scrap.toInt

section Steps

variable {db db' : Database}

theorem CountsNonneg.insert (h : CountsNonneg db) {r : ProductionCountRow}
    {counts : Table ProductionCountRow} (hins : db.productionCounts.insert? r = some counts)
    (hr : 0 ≤ r.good ∧ 0 ≤ r.scrap) (hcounts : db'.productionCounts = counts) :
    CountsNonneg db' := by
  intro s hs
  rw [hcounts] at hs
  rcases (Table.mem_insert? hins).mp hs with hs | rfl
  · exact h s hs
  · exact ⟨Int32.le_iff_toInt_le.mp hr.1, Int32.le_iff_toInt_le.mp hr.2⟩

/-- The loop over a batch that started on `db`. -/
structure FloorIntake (db : Database) (st : Intake) : Prop where
  cache : ∀ key s, st.cache key = some s → s = resolveSource db key
  sources : st.db.signalSources = db.signalSources
  states : st.db.machineStates = db.machineStates
  counts : CountsNonneg st.db

theorem FloorIntake.ingest {st st' : Intake} {ids : ℕ → String} {sig : RawSignal}
    (h : FloorIntake db st) (hsound : CountsSound db [sig])
    (hok : st.ingest ids sig = .ok st') : FloorIntake db st' := by
  obtain ⟨hcache, hdb⟩ := Intake.ingest_cases hok
  have hupdate := Intake.cache_update h.cache h.sources sig.sourceKey
  rw [← hcache] at hupdate
  rcases hdb with hdb | ⟨source, hsource, hstore⟩
  · exact ⟨hupdate, by rw [hdb, h.sources], by rw [hdb, h.states], by rw [hdb]; exact h.counts⟩
  · rw [Intake.source_eq h.cache h.sources] at hsource
    rcases storeSignal_cases hstore with ⟨_, -, -, hdb⟩ | ⟨good, scrap, counts, hkind, hins, hdb⟩
    · refine ⟨hupdate, by rw [hdb]; exact h.sources, by rw [hdb]; exact h.states, ?_⟩
      rw [hdb]
      exact h.counts
    · have hnonneg := hsound sig List.mem_cons_self good scrap hkind (by simp [hsource])
      refine ⟨hupdate, by rw [hdb]; exact h.sources, by rw [hdb]; exact h.states, ?_⟩
      exact h.counts.insert hins hnonneg (by rw [hdb])

theorem FloorIntake.loop {st : Intake} {signals : List RawSignal} (ids : ℕ → String)
    (h : FloorIntake db st) (hsound : CountsSound db signals) :
    (ingestLoop ids st signals).1.machineStates = db.machineStates
      ∧ CountsNonneg (ingestLoop ids st signals).1 := by
  induction signals generalizing st with
  | nil => exact ⟨h.states, h.counts⟩
  | cons sig rest ih =>
      unfold ingestLoop
      split
      · exact ⟨h.states, h.counts⟩
      · rename_i st' hok
        apply ih
        · refine h.ingest (fun s hs => hsound s ?_) hok
          exact List.mem_cons.mpr (Or.inl (List.mem_singleton.mp hs))
        · exact fun s hs => hsound s (List.mem_cons_of_mem sig hs)

theorem CountInput.nonneg_of_check {input : CountInput} (h : input.check = .ok ()) :
    0 ≤ input.good ∧ 0 ≤ input.scrap := by
  unfold CountInput.check at h
  split at h
  · cases h
  · rename_i hneg
    rw [not_or, Int32.not_lt, Int32.not_lt] at hneg
    exact hneg

/-- What every sound run keeps: disjoint states and no negative count. -/
structure FloorOk (db : Database) : Prop where
  apart : ∀ wc, StatesApart db wc
  counts : CountsNonneg db

theorem FloorOk.of_machineStates (h : FloorOk db) (hstates : db'.machineStates = db.machineStates)
    (hcounts : CountsNonneg db') : FloorOk db' := by
  refine ⟨fun wc => ⟨?_, ?_⟩, hcounts⟩
  · rw [hstates]
    exact (h.apart wc).proper
  · rw [hstates]
    exact (h.apart wc).apart

theorem floorOk_uncounted (db : Database) : FloorOk (uncounted db) := by
  refine ⟨fun wc => ⟨?_, ?_⟩, ?_⟩
  · intro r hr
    exact absurd hr (Table.notMem_empty r)
  · intro r hr
    exact absurd hr (Table.notMem_empty r)
  · intro r hr
    exact absurd hr (Table.notMem_empty r)

theorem FloorOk.count (h : FloorOk db) (now : Int) (id opId : String) (input : CountInput) :
    FloorOk (Edge.recordCount db now id opId input).1 := by
  rcases recordCount_cases db now id opId input with
    hsame | ⟨op, wcId, op', counts, -, -, hcheck, hins, -, hdb⟩
  · rw [hsame]
    exact h
  · refine h.of_machineStates (by rw [hdb]) ?_
    exact h.counts.insert (insertCount_ok hins) (CountInput.nonneg_of_check hcheck)
      (by rw [hdb])

theorem FloorOk.step (h : FloorOk db) {op : FloorOp}
    (hsound : ∀ ids signals, op = .ingest ids signals → CountsSound db signals) :
    FloorOk (floorStep db op) := by
  cases op with
  | ingest ids signals =>
      have hstart : FloorIntake db { db, cache := fun _ => none, accepted := 0, dropped := 0 } := by
        refine ⟨?_, rfl, rfl, h.counts⟩
        intro key s hs
        cases hs
      obtain ⟨hstates, hcounts⟩ := hstart.loop ids (hsound ids signals rfl)
      exact h.of_machineStates hstates hcounts
  | count now id opId input => exact h.count now id opId input
  | recompute wc start finish ids =>
      unfold floorStep afterRecompute
      dsimp only
      cases hok : recomputeStates db wc start finish ids with
      | error e => exact h
      | ok res =>
          obtain ⟨db', n⟩ := res
          refine ⟨fun wc' => statesApart_recompute (h.apart wc') hok, ?_⟩
          intro r (hr : r ∈ db'.productionCounts)
          rw [(recomputeStates_ok hok).2.2.1] at hr
          exact h.counts r hr
  | other next => exact h.of_machineStates rfl h.counts

theorem floorReached_append (db : Database) (before : List FloorOp) (op : FloorOp) :
    floorReached db (before ++ [op]) = floorStep (floorReached db before) op := by
  simp [floorReached, List.foldl_append]

theorem floorOk_reached {db : Database} {ops : List FloorOp} (hsound : RunSound db ops)
    {before after : List FloorOp} (hops : ops = before ++ after) :
    FloorOk (floorReached db before) := by
  induction before using List.reverseRecOn generalizing after with
  | nil => exact floorOk_uncounted db
  | append_singleton before op ih =>
      rw [floorReached_append]
      rw [List.append_assoc, List.singleton_append] at hops
      refine (ih hops).step ?_
      rintro ids signals rfl
      exact hsound before ids signals after hops

end Steps

section Factors

variable {db : Database} {wc : String} {window : Span Int}

/-- All four numbers lie between zero and one. -/
structure OeeResult.Percentages (r : OeeResult) : Prop where
  availability : 0 ≤ r.availability ∧ r.availability ≤ 1
  performance : 0 ≤ r.performance ∧ r.performance ≤ 1
  quality : 0 ≤ r.quality ∧ r.quality ≤ 1
  oee : 0 ≤ r.oee ∧ r.oee ≤ 1

theorem CountsNonneg.good_le_pieces (h : CountsNonneg db) :
    0 ≤ goodCount db wc window ∧ goodCount db wc window ≤ piecesIn db wc window := by
  have hrow : ∀ r ∈ countsIn db wc window, 0 ≤ r.good.toInt ∧ 0 ≤ r.scrap.toInt := by
    intro r hr
    exact h r (List.mem_of_mem_filter hr)
  constructor
  · apply List.sum_nonneg
    intro x hx
    obtain ⟨r, hr, rfl⟩ := List.mem_map.mp hx
    exact (hrow r hr).1
  · apply List.sum_le_sum
    intro r hr
    have hscrap := (hrow r hr).2
    omega

theorem ratio_mem_unit {num den : ℚ} (hnum : 0 ≤ num) (hle : num ≤ den) :
    0 ≤ ratio num den ∧ ratio num den ≤ 1 := by
  unfold ratio
  split
  · rename_i hden
    exact ⟨div_nonneg hnum hden.le, (div_le_one₀ hden).mpr hle⟩
  · exact ⟨le_rfl, zero_le_one⟩

theorem ratio_nonneg {num : ℚ} (den : ℚ) (hnum : 0 ≤ num) : 0 ≤ ratio num den := by
  unfold ratio
  split
  · rename_i hden
    exact div_nonneg hnum hden.le
  · exact le_rfl

/-- Over disjoint states and counts that are not negative, all factors are percentages. -/
theorem FloorOk.percentages (h : FloorOk db) {start finish : Int} {row : WorkCenterRow}
    {res : OeeResult} (hrow : db.workCenters.lookup wc = some row)
    (hideal : 0 ≤ row.idealCycleSeconds.getD 0) (hw : start ≤ finish)
    (hres : oeeSql db wc start finish = .ok res) : OeeResult.Percentages res := by
  have havailability := oeeSql_availability (h.apart wc) hw hres
  have hfits : ¬ CountsOverflow db wc ⟨start, finish⟩ := by
    intro hover
    unfold oeeSql at hres
    dsimp only at hres
    rw [hrow, totalCount_of_overflow hover] at hres
    cases hres
  rw [oeeSql_eq hrow hfits] at hres
  cases hres
  obtain ⟨hgood, hle⟩ :
      0 ≤ goodCount db wc ⟨start, finish⟩
        ∧ goodCount db wc ⟨start, finish⟩ ≤ piecesIn db wc ⟨start, finish⟩ :=
    h.counts.good_le_pieces
  have hpieces : (0 : ℚ) ≤ piecesIn db wc ⟨start, finish⟩ := Int.cast_nonneg (hgood.trans hle)
  have hperformance := ratio_nonneg
    (epoch (clampedMicros db wc ⟨start, finish⟩ (stateStr .running)))
    (mul_nonneg hideal hpieces)
  have hquality := ratio_mem_unit (Int.cast_nonneg hgood : (0 : ℚ) ≤ _) (Int.cast_le.mpr hle)
  have hcapped := le_min hperformance zero_le_one
  have hproduct := mul_nonneg havailability.1 hcapped
  refine ⟨havailability, ⟨hcapped, min_le_right _ _⟩, hquality,
    ⟨mul_nonneg hproduct hquality.1, ?_⟩⟩
  exact mul_le_one₀ (mul_le_one₀ havailability.2 hcapped (min_le_right _ _)) hquality.1 hquality.2

/-- In every state of a run that takes in no negative count, every window's factors and
their product are percentages. -/
theorem oee_percentages (db : Database) (ops : List FloorOp) (hsound : RunSound db ops)
    (before after : List FloorOp) (hops : ops = before ++ after) (wc : String)
    (row : WorkCenterRow) (hrow : (floorReached db before).workCenters.lookup wc = some row)
    (hideal : 0 ≤ row.idealCycleSeconds.getD 0) (start finish : Int) (hw : start < finish)
    (res : OeeResult)
    (hres : oeeSql (floorReached db before) wc (toSql start) (toSql finish) = .ok res) :
    OeeResult.Percentages res :=
  (floorOk_reached hsound hops).percentages hrow hideal (toSql_mono hw.le) hres

/-- A press whose counter reports pieces. -/
def meteredPress : Database where
  workCenters := ⟨[{ id := "press", idealCycleSeconds := some 1 }], List.nodup_singleton _⟩
  signalSources := ⟨[⟨"src", "press", "meter", "count", true⟩], List.nodup_singleton _⟩

/-- The counter reports its pieces once. -/
def meterRun (good scrap : Int32) : List FloorOp :=
  [.ingest (fun _ => "c1") [⟨"meter", 5000, .count good scrap⟩]]

theorem meterRun_percentages :
    ∃ res, oeeSql (floorReached meteredPress (meterRun 4 1)) "press" (toSql 0) (toSql 10000) =
        .ok res ∧
      OeeResult.Percentages res := by
  have hsound : RunSound meteredPress (meterRun 4 1) := by
    intro before ids signals after hops
    cases before with
    | cons op rest =>
        have hnil := (List.cons.inj hops).2
        exact absurd hnil.symm (List.append_ne_nil_of_right_ne_nil _ (List.cons_ne_nil _ _))
    | nil =>
        obtain ⟨-, hsignals⟩ := FloorOp.ingest.inj (List.cons.inj hops).1
        intro sig hsig good scrap hkind _
        rw [← hsignals] at hsig
        rw [List.mem_singleton.mp hsig] at hkind
        cases hkind
        decide
  obtain ⟨res, hres⟩ :
      ∃ res, oeeSql (floorReached meteredPress (meterRun 4 1)) "press" (toSql 0) (toSql 10000) =
        .ok res :=
    ⟨_, rfl⟩
  exact ⟨res, hres, oee_percentages meteredPress (meterRun 4 1) hsound (meterRun 4 1) []
    (List.append_nil _).symm "press" { id := "press", idealCycleSeconds := some 1 } rfl
    (by decide +kernel) 0 10000 (by decide) res hres⟩

/-- A count of five good pieces and minus four scrapped ones makes a quality of 5. -/
theorem meterRun_quality_above_one :
    ∃ res, oeeSql (floorReached meteredPress (meterRun 5 (-4))) "press" (toSql 0) (toSql 10000) =
        .ok res ∧
      ¬ OeeResult.Percentages res := by
  refine ⟨_, rfl, ?_⟩
  intro h
  have hle := h.quality.2
  revert hle
  decide +kernel

end Factors

end ElectronixMes.Derived
