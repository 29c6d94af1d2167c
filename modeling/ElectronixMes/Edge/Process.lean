import ElectronixMes.Db.RepoIngest
import ElectronixMes.Core.Told

/-!
# The state-derivation pipeline

`recomputeStates` reads the pulses and planned stops of a window, runs the
state engine and replaces the derived rows. `recomputeStates_ok` is the only
lemma that unfolds it: a successful call keeps the rows that are not stale and
appends the derived ones.
-/

namespace ElectronixMes.Edge

open Db ElectronixMes.Core Relational Timeline

/-- The timeline the engine computes from what the database stores. -/
def computedStates (db : Database) (workCenterId : String) (start finish : Int) :
    List StateInterval :=
  applyPlannedStops
    (computeStates .default (fetchCyclePulses db workCenterId start finish) start finish)
    (fetchPlannedIntervals db workCenterId start finish)

/-- An interval as its row keeps it. -/
def bound (iv : StateInterval) : StateInterval := ⟨iv.state, toSql iv.start, toSql iv.finish⟩

/-- The timeline as it is stored. -/
def derivedStates (db : Database) (workCenterId : String) (start finish : Int) :
    List StateInterval :=
  (computedStates db workCenterId start finish).map bound

/-- The unplanned stops among them. -/
def detectedStops (db : Database) (workCenterId : String) (start finish : Int) :
    List StateInterval :=
  (derivedStates db workCenterId start finish).filter isDowntime

/-- Recompute derived state over `[start, finish]`. The downtime events draw
their ids first, the machine states after them. -/
def recomputeStates (db : Database) (workCenterId : String) (start finish : Int)
    (ids : ℕ → String) : Except RepoError (Database × ℕ × ℕ) := do
  let pulses := fetchCyclePulses db workCenterId start finish
  let planned := fetchPlannedIntervals db workCenterId start finish
  let raw := computeStates .default pulses start finish
  let states := applyPlannedStops raw planned
  let downtime := downtimeEvents ids states
  let db ← replaceDerived db workCenterId start finish states downtime
    fun i => ids (downtime.length + i)
  return (db, states.length, downtime.length)

section Derived

variable {db : Database} {wc : String} {start finish : Int}

theorem toSql_of_edge {edge t : Int} (h : t = edge ∨ t = ofSql (toSql edge)) :
    toSql t = toSql edge := by
  rcases h with rfl | rfl
  · rfl
  · exact toSql_ofSql _

/-- The computed intervals tile the window, or reach to a pulse outside of it that is bound as
the end of the window is. Between the ends of the tiling they start and end at decoded instants. -/
theorem computedStates_timeline (db : Database) (wc : String) (h : start < finish) :
    ∃ a b, (a ≤ start ∧ (a = start ∨ a = ofSql (toSql start))) ∧
      (finish ≤ b ∧ (b = finish ∨ b = ofSql (toSql finish))) ∧
      Timeline a b (computedStates db wc start finish) ∧
      Ends (fun t => t = a ∨ t = b ∨ ∃ m, t = ofSql m) (computedStates db wc start finish) := by
  have hcfg : 0 ≤ StateConfig.default.microStopAfter := by decide
  have hdecoded : ∀ p ∈ debounce (fetchCyclePulses db wc start finish) StateConfig.default.debounce,
      ∃ m, p = ofSql m ∧ toSql start ≤ m ∧ m ≤ toSql finish :=
    fun p hp => mem_fetchCyclePulses ((debounce_sublist _ _).subset hp)
  obtain ⟨a, ha, hfrom, b, hb, hto, htiled⟩ := computeStates_reach hcfg h
    (fetchCyclePulses db wc start finish)
  have hends := computeStates_ends_kept hcfg h ⟨ha, hfrom⟩ ⟨hb, hto⟩ htiled
  refine ⟨a, b, ⟨ha, hfrom.imp_right ?_⟩, ⟨hb, hto.imp_right ?_⟩,
    applyPlannedStops_timeline _ htiled, applyPlannedStops_ends ?_ ?_⟩
  · -- a pulse at the end of the bound window that the window itself leaves out
    intro hmem
    obtain ⟨m, rfl, hlo, -⟩ := hdecoded a hmem
    have hle := toSql_mono ha
    rw [toSql_ofSql] at hle
    rw [le_antisymm hlo hle]
  · intro hmem
    obtain ⟨m, rfl, -, hhi⟩ := hdecoded b hmem
    have hle := toSql_mono hb
    rw [toSql_ofSql] at hle
    rw [le_antisymm hle hhi]
  · intro iv hiv
    have hkept {t : Int} (ht : t = a ∨ t = b ∨ t ∈ debounce (fetchCyclePulses db wc start finish)
        StateConfig.default.debounce) : t = a ∨ t = b ∨ ∃ m, t = ofSql m := by
      refine ht.imp_right (Or.imp_right fun hmem => ?_)
      obtain ⟨m, rfl, -⟩ := hdecoded t hmem
      exact ⟨m, rfl⟩
    exact ⟨hkept (hends iv hiv).1, hkept (hends iv hiv).2⟩
  · intro p hp
    obtain ⟨hstart, hfinish⟩ := mem_fetchPlannedIntervals hp
    exact ⟨Or.inr (Or.inr hstart), Or.inr (Or.inr hfinish)⟩

/-- An empty or reversed window derives nothing. -/
theorem computedStates_of_le (h : finish ≤ start) : computedStates db wc start finish = [] := by
  rw [computedStates, computeStates_of_le h]
  rfl

/-- Something is derived only for a window that ends after it starts. -/
theorem window_of_mem {u : StateInterval} (hu : u ∈ computedStates db wc start finish) :
    start < finish := by
  by_contra hge
  rw [computedStates_of_le (not_lt.mp hge)] at hu
  cases hu

theorem mem_derivedStates {iv : StateInterval} :
    iv ∈ derivedStates db wc start finish ↔
      ∃ u ∈ computedStates db wc start finish, bound u = iv := List.mem_map

/-- Every derived interval lies in the window, as that is bound. -/
theorem derivedStates_bounds {iv : StateInterval} (h : iv ∈ derivedStates db wc start finish) :
    toSql start ≤ iv.start ∧ iv.start ≤ iv.finish ∧ iv.finish ≤ toSql finish := by
  obtain ⟨u, hu, rfl⟩ := mem_derivedStates.mp h
  obtain ⟨a, b, ⟨-, ha⟩, ⟨-, hb⟩, htiled, -⟩ := computedStates_timeline db wc (window_of_mem hu)
  obtain ⟨hlo, hproper, hhi⟩ := htiled.bounds hu
  exact ⟨toSql_of_edge ha ▸ toSql_mono hlo, toSql_mono hproper.le,
    toSql_of_edge hb ▸ toSql_mono hhi⟩

theorem derivedStates_pairwise :
    (derivedStates db wc start finish).Pairwise fun a b => Span.Apart a.span b.span := by
  rw [derivedStates, List.pairwise_map]
  rcases lt_or_ge start finish with hlt | hge
  · obtain ⟨a, b, -, -, htiled, -⟩ := computedStates_timeline db wc hlt
    exact htiled.pairwise_apart.imp fun h => h.map toSql_mono
  · rw [computedStates_of_le hge]
    exact List.Pairwise.nil

/-- A derived interval that is not empty overlaps the window. -/
theorem derivedStates_overlaps {iv : StateInterval}
    (h : iv ∈ derivedStates db wc start finish) (hlt : iv.start < iv.finish) :
    iv.span.Overlaps ⟨toSql start, toSql finish⟩ := by
  obtain ⟨hlo, -, hhi⟩ := derivedStates_bounds h
  exact ⟨hlt.trans_le hhi, hlo.trans_lt hlt⟩

/-- An empty derived interval stands at an end of the window. -/
theorem derivedStates_empty {iv : StateInterval} (h : iv ∈ derivedStates db wc start finish)
    (hempty : iv.start = iv.finish) : iv.start = toSql start ∨ iv.start = toSql finish := by
  obtain ⟨u, hu, rfl⟩ := mem_derivedStates.mp h
  have hempty : toSql u.start = toSql u.finish := hempty
  obtain ⟨a, b, ⟨-, ha⟩, ⟨-, hb⟩, htiled, hends⟩ := computedStates_timeline db wc (window_of_mem hu)
  have hlt : u.start < u.finish := (htiled.bounds hu).2.1
  have ha := toSql_of_edge ha
  have hb := toSql_of_edge hb
  -- between two decoded instants lies a microsecond, so one end is an end of the window
  obtain ⟨hstart, hfinish⟩ := hends u hu
  rcases hstart with hs | hs | ⟨m, hm⟩
  · exact Or.inl ((congrArg toSql hs).trans ha)
  · exact Or.inr ((congrArg toSql hs).trans hb)
  · rcases hfinish with hf | hf | ⟨m', hm'⟩
    · exact Or.inl (hempty.trans ((congrArg toSql hf).trans ha))
    · exact Or.inr (hempty.trans ((congrArg toSql hf).trans hb))
    · rw [hm, hm', toSql_ofSql, toSql_ofSql] at hempty
      rw [hm, hm', hempty] at hlt
      exact absurd hlt (lt_irrefl _)

/-- A window that is not empty derives something. -/
theorem computedStates_ne_nil (db : Database) (wc : String) (h : start < finish) :
    computedStates db wc start finish ≠ [] := by
  intro hnil
  obtain ⟨a, b, ⟨ha, -⟩, ⟨hb, -⟩, htiled, -⟩ := computedStates_timeline db wc h
  rw [hnil] at htiled
  have hempty : a = b := htiled
  omega

end Derived

section Rows

/-- The machine-state rows a call inserts. -/
def newStates (db : Database) (wc : String) (start finish : Int) (ids : ℕ → String) :
    List MachineStateRow :=
  (computedStates db wc start finish).mapIdx fun i iv =>
    stateRow wc (ids ((detectedStops db wc start finish).length + i)) iv

/-- The downtime rows a call inserts. -/
def newDowntime (db : Database) (wc : String) (start finish : Int) (ids : ℕ → String) :
    List DowntimeEventRow :=
  (downtimeEvents ids (computedStates db wc start finish)).map (downtimeRow wc)

variable {db db' : Database} {wc : String} {start finish : Int} {ids : ℕ → String}
  {n : ℕ × ℕ}

/-- Whether an interval is a stop does not depend on its ends. -/
theorem detectedStops_eq (db : Database) (wc : String) (start finish : Int) :
    detectedStops db wc start finish =
      ((computedStates db wc start finish).filter isDowntime).map bound := by
  rw [detectedStops, derivedStates, List.filter_map]
  rfl

theorem newDowntime_eq (db : Database) (wc : String) (start finish : Int) (ids : ℕ → String) :
    newDowntime db wc start finish ids =
      (detectedStops db wc start finish).mapIdx fun i iv =>
        ⟨ids i, wc, stateStr iv.state, iv.start, iv.finish, none, none, none⟩ := by
  rw [detectedStops_eq]
  apply List.ext_getElem
  · simp [newDowntime, downtimeEvents]
  · intro i _ _
    simp [newDowntime, downtimeEvents, downtimeRow, bound]

@[simp] theorem length_downtimeEvents (ids : ℕ → String) :
    (downtimeEvents ids (computedStates db wc start finish)).length =
      (detectedStops db wc start finish).length := by
  simp [downtimeEvents, detectedStops_eq]

/-- The call with its two insert loops laid bare. -/
theorem recomputeStates_eq (db : Database) (wc : String) (start finish : Int)
    (ids : ℕ → String) :
    recomputeStates db wc start finish ids =
      match insertRows db "machine_states" wc
          (db.machineStates.delete (staleState wc ⟨toSql start, toSql finish⟩))
          (newStates db wc start finish ids),
        insertRows db "downtime_events" wc
          (db.downtimeEvents.delete (staleDowntime wc ⟨toSql start, toSql finish⟩))
          (newDowntime db wc start finish ids) with
      | .ok machineStates, .ok downtimeEvents =>
          .ok ({ db with machineStates, downtimeEvents },
            (computedStates db wc start finish).length,
            (detectedStops db wc start finish).length)
      | .error e, _ => .error e
      | .ok _, .error e => .error e := by
  rw [newStates, newDowntime, ← length_downtimeEvents ids]
  unfold recomputeStates replaceDerived computedStates
  dsimp only
  generalize insertRows db "machine_states" wc
    (db.machineStates.delete (staleState wc ⟨toSql start, toSql finish⟩)) _ = machineStates
  generalize insertRows db "downtime_events" wc
    (db.downtimeEvents.delete (staleDowntime wc ⟨toSql start, toSql finish⟩)) _ = downtimeEvents
  cases machineStates with
  | error e => rfl
  | ok m => cases downtimeEvents <;> rfl

/-- A successful call keeps the rows that are not stale, appends the derived
ones, and touches no other table. -/
theorem recomputeStates_ok (h : recomputeStates db wc start finish ids = .ok (db', n)) :
    db'.machineStates.rows =
        (db.machineStates.delete (staleState wc ⟨toSql start, toSql finish⟩)).rows ++
          newStates db wc start finish ids ∧
      db'.downtimeEvents.rows =
        (db.downtimeEvents.delete (staleDowntime wc ⟨toSql start, toSql finish⟩)).rows ++
          newDowntime db wc start finish ids ∧
      db' = { db with
        machineStates := db'.machineStates
        downtimeEvents := db'.downtimeEvents } ∧
      n = ((computedStates db wc start finish).length,
        (detectedStops db wc start finish).length) := by
  rw [recomputeStates_eq] at h
  split at h
  · rename_i machineStates downtimeEvents hm hd
    cases h
    exact ⟨(rows_of_insertRows hm).1, (rows_of_insertRows hd).1, rfl, rfl⟩
  · cases h
  · cases h

theorem mem_machineStates_of_ok (h : recomputeStates db wc start finish ids = .ok (db', n))
    {r : MachineStateRow} :
    r ∈ db'.machineStates ↔
      (r ∈ db.machineStates ∧
          (r.workCenterId = wc → Span.Apart r.span ⟨toSql start, toSql finish⟩)) ∨
        r ∈ newStates db wc start finish ids := by
  rw [← Table.mem_rows, (recomputeStates_ok h).1, List.mem_append, Table.mem_rows,
    Table.mem_delete]
  simp only [staleState, decide_eq_false_iff_not, not_and, Span.not_overlaps_iff]

theorem mem_downtimeEvents_of_ok (h : recomputeStates db wc start finish ids = .ok (db', n))
    {r : DowntimeEventRow} :
    r ∈ db'.downtimeEvents ↔
      (r ∈ db.downtimeEvents ∧
        (r.workCenterId = wc → r.reasonId = none → Span.Apart r.span ⟨toSql start, toSql finish⟩)) ∨
        r ∈ newDowntime db wc start finish ids := by
  rw [← Table.mem_rows, (recomputeStates_ok h).2.1, List.mem_append, Table.mem_rows,
    Table.mem_delete]
  simp only [staleDowntime, decide_eq_false_iff_not, not_and, Span.not_overlaps_iff]

/-- The database after a call: a failed call leaves it as it was. -/
def afterRecompute (db : Database) (wc : String) (start finish : Int) (ids : ℕ → String) :
    Database :=
  match recomputeStates db wc start finish ids with
  | .ok (db', _) => db'
  | .error _ => db

theorem mem_newStates {r : MachineStateRow} (h : r ∈ newStates db wc start finish ids) :
    ∃ iv ∈ derivedStates db wc start finish,
      r.workCenterId = wc ∧ r.state = stateStr iv.state ∧ r.span = iv.span := by
  obtain ⟨i, hi, rfl⟩ := List.mem_mapIdx.mp h
  exact ⟨_, List.mem_map_of_mem (List.getElem_mem hi), rfl, rfl, rfl⟩

/-- Every derived interval gets its row. -/
theorem exists_newStates {iv : StateInterval} (ids : ℕ → String)
    (h : iv ∈ derivedStates db wc start finish) :
    ∃ r ∈ newStates db wc start finish ids,
      r.workCenterId = wc ∧ r.state = stateStr iv.state ∧ r.span = iv.span := by
  obtain ⟨u, hu, rfl⟩ := mem_derivedStates.mp h
  obtain ⟨i, hi, rfl⟩ := List.mem_iff_getElem.mp hu
  exact ⟨_, List.mem_mapIdx.mpr ⟨i, hi, rfl⟩, rfl, rfl, rfl⟩

theorem mem_newDowntime {r : DowntimeEventRow}
    (h : r ∈ newDowntime db wc start finish ids) :
    ∃ iv ∈ detectedStops db wc start finish,
      r.workCenterId = wc ∧ r.reasonId = none ∧ r.span = iv.span := by
  rw [newDowntime_eq] at h
  obtain ⟨i, hi, rfl⟩ := List.mem_mapIdx.mp h
  exact ⟨_, List.getElem_mem hi, rfl, rfl, rfl⟩

theorem unclassified_newDowntime {r : DowntimeEventRow}
    (h : r ∈ newDowntime db wc start finish ids) :
    r.reasonId = none ∧ r.classifiedBy = none ∧ r.classifiedAt = none := by
  obtain ⟨dt, -, rfl⟩ := List.mem_map.mp h
  exact ⟨rfl, rfl, rfl⟩

/-- Every detected stop gets its row. -/
theorem exists_newDowntime (ids : ℕ → String) {iv : StateInterval}
    (h : iv ∈ detectedStops db wc start finish) :
    ∃ r ∈ newDowntime db wc start finish ids,
      r.workCenterId = wc ∧ r.span = iv.span := by
  rw [newDowntime_eq]
  obtain ⟨i, hi, rfl⟩ := List.mem_iff_getElem.mp h
  exact ⟨_, List.mem_mapIdx.mpr ⟨i, hi, rfl⟩, rfl, rfl⟩

theorem mem_detectedStops {iv : StateInterval} (h : iv ∈ detectedStops db wc start finish) :
    iv ∈ derivedStates db wc start finish :=
  (List.mem_filter.mp h).1

theorem pairwise_mapIdx {α β : Type*} {R : α → α → Prop} {S : β → β → Prop} {l : List α}
    {f : ℕ → α → β} (h : l.Pairwise R) (hf : ∀ i j a b, R a b → S (f i a) (f j b)) :
    (l.mapIdx f).Pairwise S := by
  rw [List.pairwise_iff_getElem] at h ⊢
  intro i j hi hj hij
  rw [List.length_mapIdx] at hi hj
  simp only [List.getElem_mapIdx]
  exact hf _ _ _ _ (h i j hi hj hij)

theorem newStates_pairwise :
    (newStates db wc start finish ids).Pairwise fun a b => Span.Apart a.span b.span :=
  pairwise_mapIdx (List.pairwise_map.mp derivedStates_pairwise) fun _ _ _ _ h => h

theorem newDowntime_pairwise :
    (newDowntime db wc start finish ids).Pairwise fun a b => Span.Apart a.span b.span := by
  rw [newDowntime_eq]
  exact pairwise_mapIdx (derivedStates_pairwise.sublist List.filter_sublist) fun _ _ _ _ h => h

end Rows

end ElectronixMes.Edge
