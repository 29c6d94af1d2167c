import ElectronixMes.Derived.MachineStates

/-!
# Deriving a window twice

The second of two recomputes of one window deletes what the first inserted and
nothing else, because every derived interval lies in the window, as long as it is
non-empty: an empty one stands at an edge of the window, where no delete finds it.
The tables are compared row by row, in insertion order, without the generated ids.
-/

namespace ElectronixMes.Derived

open Db ElectronixMes.Core Edge Relational Timeline

/-- Generated ids: no two are equal and none is in use. -/
structure NewIds (db : Database) (ids : ℕ → String) : Prop where
  injective : Function.Injective ids
  states : ∀ i, ∀ r ∈ db.machineStates, r.id ≠ ids i
  downtime : ∀ i, ∀ r ∈ db.downtimeEvents, r.id ≠ ids i

/-- The machine states without their generated ids. -/
def statesContent (db : Database) : List MachineStateRow :=
  db.machineStates.rows.map fun r => { r with id := "" }

/-- The downtime events without their generated ids. -/
def downtimeContent (db : Database) : List DowntimeEventRow :=
  db.downtimeEvents.rows.map fun r => { r with id := "" }

variable {db db' : Database} {wc : String} {start finish : Int} {ids ids' : ℕ → String}
  {n : ℕ × ℕ}

theorem keys_newStates :
    (newStates db wc start finish ids).map Keyed.key =
      (List.range (computedStates db wc start finish).length).map fun i =>
        ids ((detectedStops db wc start finish).length + i) := by
  apply List.ext_getElem
  · simp [newStates]
  · intro i _ _
    simp [newStates, stateRow]

theorem keys_newDowntime (db : Database) (wc : String) (start finish : Int) (ids : ℕ → String) :
    (newDowntime db wc start finish ids).map Keyed.key =
      (List.range (detectedStops db wc start finish).length).map ids := by
  rw [newDowntime_eq]
  apply List.ext_getElem
  · simp
  · intro i _ _
    simp

/-- Appending rows whose keys are fresh and distinct keeps all keys distinct. -/
theorem nodup_keys_append {ρ : Type} [Keyed ρ String] {t : Table ρ} {p : ρ → Bool}
    {rows : List ρ} {len : ℕ} (offset : ℕ) (hinj : Function.Injective ids)
    (hrows : rows.map Keyed.key = (List.range len).map fun i => ids (offset + i))
    (hfresh : ∀ i, ∀ r ∈ t, Keyed.key r ≠ ids i) :
    (((t.delete p).rows ++ rows).map Keyed.key).Nodup := by
  rw [List.map_append, hrows]
  apply List.Nodup.append (t.delete p).unique
  · apply List.nodup_range.map
    intro i j hij
    exact Nat.add_left_cancel (hinj hij)
  · intro k hk hk'
    obtain ⟨r, hr, rfl⟩ := List.mem_map.mp hk
    obtain ⟨i, -, hi⟩ := List.mem_map.mp hk'
    exact hfresh _ r (Table.mem_delete.mp hr).1 hi.symm

/-- With new ids a call on an existing work center succeeds. -/
theorem recomputeStates_isOk (hids : NewIds db ids)
    (hwc : (db.workCenters.lookup wc).isSome) :
    ∃ res, recomputeStates db wc start finish ids = .ok res := by
  obtain ⟨m, hm⟩ := insertRows_isOk "machine_states" hwc
    (nodup_keys_append (p := staleState wc ⟨toSql start, toSql finish⟩) _ hids.injective
      keys_newStates hids.states)
  have hkeys := keys_newDowntime db wc start finish ids
  obtain ⟨d, hd⟩ := insertRows_isOk "downtime_events" hwc
    (nodup_keys_append (p := staleDowntime wc ⟨toSql start, toSql finish⟩) 0 hids.injective
      (by simpa using hkeys) hids.downtime)
  rw [recomputeStates_eq, hm, hd]
  exact ⟨_, rfl⟩

/-- A window that derives nothing needs neither ids nor the work center. -/
theorem recomputeStates_isOk_of_nil (hnil : computedStates db wc start finish = []) :
    ∃ res, recomputeStates db wc start finish ids = .ok res := by
  rw [recomputeStates_eq, newStates, newDowntime, hnil]
  exact ⟨_, rfl⟩

/-- What a successful call has inserted is of a known work center. -/
theorem workCenter_of_ok (hne : computedStates db wc start finish ≠ [])
    (hok : recomputeStates db wc start finish ids = .ok (db', n)) :
    (db.workCenters.lookup wc).isSome := by
  rw [recomputeStates_eq] at hok
  split at hok
  · rename_i m d hm hd
    apply (rows_of_insertRows hm).2
    intro hempty
    exact hne (List.mapIdx_eq_nil_iff.mp hempty)
  · cases hok
  · cases hok

section Twice

variable {db₁ db₂ : Database} {n₁ n₂ : ℕ × ℕ}

/-- The engine reads no table that a recompute writes. -/
theorem computedStates_of_ok (hok : recomputeStates db wc start finish ids = .ok (db', n))
    (s f : Int) : computedStates db' wc s f = computedStates db wc s f := by
  rw [(recomputeStates_ok hok).2.2.1]
  rfl

/-- What is inserted depends on the computed timeline. -/
theorem newRows_congr
    (h : computedStates db₁ wc start finish = computedStates db₂ wc start finish)
    (ids : ℕ → String) :
    newStates db₁ wc start finish ids = newStates db₂ wc start finish ids ∧
      newDowntime db₁ wc start finish ids = newDowntime db₂ wc start finish ids := by
  simp only [newStates, newDowntime, detectedStops_eq, h, and_self]

theorem newRows_of_ok (hok : recomputeStates db wc start finish ids = .ok (db', n))
    (ids' : ℕ → String) :
    newStates db' wc start finish ids' = newStates db wc start finish ids' ∧
      newDowntime db' wc start finish ids' = newDowntime db wc start finish ids' :=
  newRows_congr (computedStates_of_ok hok start finish) ids'

theorem map_newStates (ids ids' : ℕ → String) :
    (newStates db wc start finish ids).map (fun r => { r with id := "" }) =
      (newStates db wc start finish ids').map fun r => { r with id := "" } := by
  apply List.ext_getElem
  · simp [newStates]
  · intro i _ _
    simp [newStates, stateRow]

theorem map_newDowntime (ids ids' : ℕ → String) :
    (newDowntime db wc start finish ids).map (fun r => { r with id := "" }) =
      (newDowntime db wc start finish ids').map fun r => { r with id := "" } := by
  rw [newDowntime_eq, newDowntime_eq]
  apply List.ext_getElem
  · simp
  · intro i _ _
    simp

/-- Deleting again from the kept rows followed by new ones leaves the kept and those of the new
that are not stale. -/
theorem rows_delete_again {ρ : Type} [Keyed ρ String] {t t' : Table ρ} {p : ρ → Bool}
    {new : List ρ} (ht : t'.rows = (t.delete p).rows ++ new) :
    (t'.delete p).rows = (t.delete p).rows ++ new.filter fun r => !p r := by
  calc
    (t'.delete p).rows = ((t.delete p).rows ++ new).filter fun r => !p r := by
      rw [← ht]
      rfl
    _ = (t.delete p).rows ++ new.filter fun r => !p r := by
      simp [Table.delete, List.filter_filter]

theorem filter_eq_nil_of_stale {ρ : Type} {p : ρ → Bool} {new : List ρ}
    (h : ∀ r ∈ new, p r = true) : new.filter (fun r => !p r) = [] := by
  apply List.filter_eq_nil_iff.mpr
  intro r hr
  simp [h r hr]

theorem stale_newStates (hresolved : Resolved db wc start finish) :
    ∀ r ∈ newStates db wc start finish ids,
      staleState wc ⟨toSql start, toSql finish⟩ r = true := by
  intro r hr
  obtain ⟨iv, hiv, hwc, -, hspan⟩ := mem_newStates hr
  unfold staleState
  rw [decide_eq_true_eq, hspan]
  exact ⟨hwc, derivedStates_overlaps hiv (hresolved iv hiv)⟩

theorem stale_newDowntime (hresolved : Resolved db wc start finish) :
    ∀ r ∈ newDowntime db wc start finish ids,
      staleDowntime wc ⟨toSql start, toSql finish⟩ r = true := by
  intro r hr
  obtain ⟨iv, hiv, hwc, hreason, hspan⟩ := mem_newDowntime hr
  have hiv' := mem_detectedStops hiv
  unfold staleDowntime
  rw [decide_eq_true_eq, hspan]
  exact ⟨hwc, hreason, derivedStates_overlaps hiv' (hresolved iv hiv')⟩

/-- Where something is derived within a microsecond, an inserted row is not stale. -/
theorem exists_not_stale (ids : ℕ → String) (hnot : ¬ Resolved db wc start finish) :
    ∃ r ∈ newStates db wc start finish ids,
      staleState wc ⟨toSql start, toSql finish⟩ r = false := by
  simp only [Resolved, not_forall] at hnot
  obtain ⟨iv, hiv, hlt⟩ := hnot
  have hempty : iv.start = iv.finish :=
    (derivedStates_bounds hiv).2.1.antisymm (not_lt.mp hlt)
  obtain ⟨r, hr, -, -, hspan⟩ := exists_newStates ids hiv
  refine ⟨r, hr, ?_⟩
  have hapart : Span.Apart r.span ⟨toSql start, toSql finish⟩ := by
    rw [hspan]
    rcases derivedStates_empty hiv hempty with hs | hf
    · exact Or.inl (hempty.ge.trans hs.le)
    · exact Or.inr hf.ge
  unfold staleState
  rw [decide_eq_false_iff_not]
  exact fun h => Span.not_overlaps_iff.mpr hapart h.2

theorem content_of_ok_twice (hsettled : EdgesSettled db wc start finish)
    (h₁ : recomputeStates db wc start finish ids = .ok (db₁, n₁))
    (h₂ : recomputeStates db₁ wc start finish ids' = .ok (db₂, n₂)) :
    statesContent db₂ = statesContent db₁ ∧ downtimeContent db₂ = downtimeContent db₁ := by
  have hresolved := resolved_of_edgesSettled hsettled
  obtain ⟨hstates, hdowntime⟩ := newRows_of_ok h₁ ids'
  obtain ⟨hm₁, hd₁, -, -⟩ := recomputeStates_ok h₁
  obtain ⟨hm₂, hd₂, -, -⟩ := recomputeStates_ok h₂
  refine ⟨?_, ?_⟩
  · unfold statesContent
    rw [hm₂, hm₁, rows_delete_again hm₁, filter_eq_nil_of_stale (stale_newStates hresolved),
      List.append_nil, hstates, List.map_append, List.map_append, map_newStates ids ids']
  · unfold downtimeContent
    rw [hd₂, hd₁, rows_delete_again hd₁, filter_eq_nil_of_stale (stale_newDowntime hresolved),
      List.append_nil, hdowntime, List.map_append, List.map_append, map_newDowntime ids ids']

/-- Where the edges are not settled, a second call adds rows. -/
theorem edgesSettled_of_content (h₁ : recomputeStates db wc start finish ids = .ok (db₁, n₁))
    (h₂ : recomputeStates db₁ wc start finish ids' = .ok (db₂, n₂))
    (hcontent : statesContent db₂ = statesContent db₁) : EdgesSettled db wc start finish := by
  rw [← resolved_iff]
  by_contra hnot
  obtain ⟨r, hr, hfresh⟩ := exists_not_stale ids hnot
  have hkept : 0 < ((newStates db wc start finish ids).filter fun r =>
      !staleState wc ⟨toSql start, toSql finish⟩ r).length := by
    apply List.length_pos_of_mem (a := r)
    exact List.mem_filter.mpr ⟨hr, by rw [hfresh]; rfl⟩
  have hlength := congrArg List.length hcontent
  simp only [statesContent, List.length_map] at hlength
  rw [(recomputeStates_ok h₂).1, rows_delete_again (recomputeStates_ok h₁).1,
    (recomputeStates_ok h₁).1, (newRows_of_ok h₁ ids').1] at hlength
  simp only [List.length_append, newStates, List.length_mapIdx] at hlength hkept
  omega

/-- A call for an unknown work center fails when there is something to insert. -/
theorem afterRecompute_of_unknown (hne : computedStates db wc start finish ≠ [])
    (hwc : ¬ (db.workCenters.lookup wc).isSome) (ids : ℕ → String) :
    afterRecompute db wc start finish ids = db := by
  unfold afterRecompute
  split
  · rename_i db' n hrun
    exact absurd (workCenter_of_ok hne hrun) hwc
  · rfl

/-- Two databases that agree on the derived tables and on what is to be derived
agree, up to generated ids, after a recompute of each. -/
theorem content_afterRecompute (hstates : db₁.machineStates = db₂.machineStates)
    (hdowntime : db₁.downtimeEvents = db₂.downtimeEvents)
    (hcenters : db₁.workCenters = db₂.workCenters) {start finish : Int}
    (hderived : computedStates db₁ wc start finish = computedStates db₂ wc start finish)
    {out₁ out₂ : ℕ → String} (h₁ : NewIds db₁ out₁) (h₂ : NewIds db₂ out₂) :
    statesContent (afterRecompute db₁ wc start finish out₁) =
        statesContent (afterRecompute db₂ wc start finish out₂) ∧
      downtimeContent (afterRecompute db₁ wc start finish out₁) =
        downtimeContent (afterRecompute db₂ wc start finish out₂) := by
  obtain ⟨hnew, hnew'⟩ := newRows_congr hderived out₁
  by_cases hok : computedStates db₁ wc start finish = [] ∨
      (db₁.workCenters.lookup wc).isSome
  · -- both calls succeed
    obtain ⟨⟨db₁', n₁⟩, hrun₁⟩ : ∃ res, recomputeStates db₁ wc start finish out₁ = .ok res := by
      rcases hok with hnil | hwc
      · exact recomputeStates_isOk_of_nil hnil
      · exact recomputeStates_isOk h₁ hwc
    obtain ⟨⟨db₂', n₂⟩, hrun₂⟩ : ∃ res, recomputeStates db₂ wc start finish out₂ = .ok res := by
      rcases hok with hnil | hwc
      · exact recomputeStates_isOk_of_nil (hderived ▸ hnil)
      · exact recomputeStates_isOk h₂ (hcenters ▸ hwc)
    obtain ⟨hm₁, hd₁, -, -⟩ := recomputeStates_ok hrun₁
    obtain ⟨hm₂, hd₂, -, -⟩ := recomputeStates_ok hrun₂
    simp only [afterRecompute, hrun₁, hrun₂, statesContent, downtimeContent]
    refine ⟨?_, ?_⟩
    · rw [hm₁, hm₂, hstates, hnew, List.map_append, List.map_append, map_newStates out₁ out₂]
    · rw [hd₁, hd₂, hdowntime, hnew', List.map_append, List.map_append,
        map_newDowntime out₁ out₂]
  · -- the work center is unknown to both, so both calls fail
    rw [not_or] at hok
    rw [afterRecompute_of_unknown hok.1 hok.2,
      afterRecompute_of_unknown (hderived ▸ hok.1) (hcenters ▸ hok.2)]
    simp only [statesContent, downtimeContent, hstates, hdowntime, and_self]

end Twice

/-- Recomputing a window twice in a row leaves the tables of recomputing it
once, whatever they held before, up to the generated ids, exactly when the work center is
unknown or the edges of the window are settled. -/
theorem recompute_twice_iff (db : Database) (wc : String) (start finish : Int)
    (ids ids' : ℕ → String) (hids : NewIds db ids)
    (hids' : NewIds (afterRecompute db wc start finish ids) ids') :
    let once := afterRecompute db wc start finish ids
    let twice := afterRecompute once wc start finish ids'
    statesContent twice = statesContent once ∧ downtimeContent twice = downtimeContent once ↔
      ((db.workCenters.lookup wc).isSome → EdgesSettled db wc start finish) := by
  intro once twice
  by_cases hnil : computedStates db wc start finish = []
  · have hsettled : EdgesSettled db wc start finish := fun hwin =>
      absurd hnil (computedStates_ne_nil db wc hwin)
    obtain ⟨⟨db₁, n₁⟩, h₁⟩ : ∃ res, recomputeStates db wc start finish ids = .ok res :=
      recomputeStates_isOk_of_nil hnil
    have honce : once = db₁ := by simp only [once, afterRecompute, h₁]
    have hnil' : computedStates db₁ wc start finish = [] :=
      (computedStates_of_ok h₁ start finish).trans hnil
    obtain ⟨⟨db₂, n₂⟩, h₂⟩ : ∃ res, recomputeStates db₁ wc start finish ids' = .ok res :=
      recomputeStates_isOk_of_nil hnil'
    have htwice : twice = db₂ := by simp only [twice, afterRecompute, honce, h₂]
    rw [htwice, honce]
    exact iff_of_true (content_of_ok_twice hsettled h₁ h₂) fun _ => hsettled
  · by_cases hwc : (db.workCenters.lookup wc).isSome
    · obtain ⟨⟨db₁, n₁⟩, h₁⟩ : ∃ res, recomputeStates db wc start finish ids = .ok res :=
        recomputeStates_isOk hids hwc
      have honce : once = db₁ := by simp only [once, afterRecompute, h₁]
      have hwc' : (db₁.workCenters.lookup wc).isSome := by
        rw [(recomputeStates_ok h₁).2.2.1]
        exact hwc
      rw [show afterRecompute db wc start finish ids = db₁ from honce] at hids'
      obtain ⟨⟨db₂, n₂⟩, h₂⟩ : ∃ res, recomputeStates db₁ wc start finish ids' = .ok res :=
        recomputeStates_isOk hids' hwc'
      have htwice : twice = db₂ := by simp only [twice, afterRecompute, honce, h₂]
      rw [htwice, honce]
      constructor
      · rintro ⟨hstates, -⟩ -
        exact edgesSettled_of_content h₁ h₂ hstates
      · intro hsettled
        exact content_of_ok_twice (hsettled hwc) h₁ h₂
    · -- both calls fail on the missing work center
      have honce : once = db := afterRecompute_of_unknown hnil hwc ids
      have htwice : twice = db := by
        simp only [twice, honce]
        exact afterRecompute_of_unknown hnil hwc ids'
      rw [htwice, honce]
      exact iff_of_true ⟨rfl, rfl⟩ fun h => absurd h hwc

/-- The press with a row that straddles the window and a classified stop. -/
def classifiedFloor : Database :=
  { pressFloor with
    machineStates := ⟨[⟨"s", "press", "running", -5000000, 5000000⟩], by decide⟩
    downtimeEvents := ⟨[⟨"d", "press", "down", 20000000, 30000000, some "jam", some "operator",
      some 0⟩], by decide⟩ }

/-- The ids of a family are new where no id contains its letter. -/
theorem newIds_letterIds {db : Database} {letter : Char}
    (hstates : ∀ r ∈ db.machineStates, letter ∉ r.id.toList)
    (hdowntime : ∀ r ∈ db.downtimeEvents, letter ∉ r.id.toList) :
    NewIds db (letterIds letter) := by
  have hmem (i : ℕ) : letter ∈ (letterIds letter i).toList := by simp [letterIds]
  constructor
  · intro i j hij
    have hlen := congrArg String.length hij
    simpa [letterIds] using hlen
  · intro i r hr heq
    exact hstates r hr (heq ▸ hmem i)
  · intro i r hr heq
    exact hdowntime r hr (heq ▸ hmem i)

theorem newIds_classifiedFloor : NewIds classifiedFloor (letterIds 'a') := by
  have hstates : ∀ r ∈ classifiedFloor.machineStates.rows, 'a' ∉ r.id.toList := by decide
  have hdowntime : ∀ r ∈ classifiedFloor.downtimeEvents.rows, 'a' ∉ r.id.toList := by decide
  exact newIds_letterIds hstates hdowntime

theorem recompute_twice_classifiedFloor :
    let once := afterRecompute classifiedFloor "press" 0 100000000000 (letterIds 'a')
    let twice := afterRecompute once "press" 0 100000000000 (letterIds 'b')
    once.machineStates.rows.length = 2 ∧ once.downtimeEvents.rows.length = 2 ∧
      statesContent twice = statesContent once ∧ downtimeContent twice = downtimeContent once := by
  intro once
  have hstates : ∀ r ∈ once.machineStates.rows, 'b' ∉ r.id.toList := by decide +kernel
  have hdowntime : ∀ r ∈ once.downtimeEvents.rows, 'b' ∉ r.id.toList := by decide +kernel
  refine ⟨by decide +kernel, by decide +kernel, ?_⟩
  apply (recompute_twice_iff classifiedFloor "press" 0 100000000000 (letterIds 'a') (letterIds 'b')
    newIds_classifiedFloor (newIds_letterIds hstates hdowntime)).mpr
  intro _
  decide +kernel

/-- Two rows for the eight hundred nanoseconds, the first of which no recompute deletes. -/
theorem recompute_twice_adds :
    ¬ ∀ (db : Database) (wc : String) (start finish : Int) (ids ids' : ℕ → String),
        NewIds db ids → NewIds (afterRecompute db wc start finish ids) ids' →
        let once := afterRecompute db wc start finish ids
        let twice := afterRecompute once wc start finish ids'
        statesContent twice = statesContent once ∧
          downtimeContent twice = downtimeContent once := by
  intro hall
  have hstates : ∀ r ∈ (afterRecompute classifiedFloor "press" 100 900
      (letterIds 'a')).machineStates.rows, 'b' ∉ r.id.toList := by decide +kernel
  have hdowntime : ∀ r ∈ (afterRecompute classifiedFloor "press" 100 900
      (letterIds 'a')).downtimeEvents.rows, 'b' ∉ r.id.toList := by decide +kernel
  have hsame := (hall classifiedFloor "press" 100 900 (letterIds 'a') (letterIds 'b')
    newIds_classifiedFloor (newIds_letterIds hstates hdowntime)).1
  revert hsame
  decide +kernel

end ElectronixMes.Derived
