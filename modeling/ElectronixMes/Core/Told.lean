import ElectronixMes.Core.Overlay

/-!
# The state that pulses and planned stops tell

No walk is needed to tell the state at an instant. Within a planned stop it is that; elsewhere
the gap between the kept pulses around the instant decides, which reaches to the end of the
window where there is no pulse. The engine and the overlay say the same at every instant of
the window. They may cut where the state goes on, but only between two stops.
-/

namespace ElectronixMes.Core

open ElectronixMes.Timeline

/-- The last pulse that is not after an instant, or else the start of the window. -/
def pulseBefore (kept : List Int) (windowStart t : Int) : Int :=
  (kept.filter (· ≤ t)).getLast?.getD windowStart

/-- The first pulse after an instant, or else the end of the window. -/
def pulseAfter (kept : List Int) (windowEnd t : Int) : Int :=
  (kept.find? (t < ·)).getD windowEnd

/-- The state at an instant of the window. A window without a pulse is one stop. -/
def told (cfg : StateConfig) (pulses : List Int) (planned : List PlannedInterval)
    (windowStart windowEnd t : Int) : MachineState :=
  let kept := debounce pulses cfg.debounce
  if Planned planned t then .plannedStop
  else if kept = [] then classifyStop cfg (windowEnd - windowStart)
  else gapState cfg (pulseAfter kept windowEnd t - pulseBefore kept windowStart t)

variable {cfg : StateConfig} {pulses : List Int} {planned : List PlannedInterval}
  {windowStart windowEnd t : Int}

theorem mem_reachPoints {p : Int} :
    p ∈ reachPoints cfg pulses windowStart windowEnd ↔
      p ∈ debounce pulses cfg.debounce ∨
        (p = windowStart ∧ ∀ q ∈ debounce pulses cfg.debounce, windowStart ≤ q) ∨
        p = windowEnd ∧ ∀ q ∈ debounce pulses cfg.debounce, q ≤ windowEnd := by
  have hend {c : Prop} [Decidable c] {x : Int} :
      p ∈ (if c then [] else [x]) ↔ p = x ∧ ¬ c := by
    by_cases hc : c <;> simp [hc]
  unfold reachPoints
  rw [List.mem_append, List.mem_append, hend, hend]
  simp only [not_exists, not_and, not_lt]
  tauto

section Gaps

variable {kept : List Int}

/-- Either every pulse is after the instant, or the last one that is not is the pulse before. -/
theorem pulseBefore_cases (hsorted : kept.Pairwise (· ≤ ·)) (windowStart t : Int) :
    (pulseBefore kept windowStart t = windowStart ∧ ∀ q ∈ kept, t < q) ∨
      IsGreatest {q | q ∈ kept ∧ q ≤ t} (pulseBefore kept windowStart t) := by
  unfold pulseBefore
  cases hlast : (kept.filter (· ≤ t)).getLast? with
  | none =>
      have hnone : ∀ q ∈ kept, t < q := by
        simpa using List.filter_eq_nil_iff.mp (List.getLast?_eq_none_iff.mp hlast)
      exact Or.inl ⟨rfl, hnone⟩
  | some last =>
      obtain ⟨init, hinit⟩ := List.getLast?_eq_some_iff.mp hlast
      have hmem : last ∈ kept ∧ last ≤ t := by
        have hfiltered := List.mem_of_getLast? hlast
        simpa using hfiltered
      refine Or.inr ⟨hmem, ?_⟩
      rintro q ⟨hq, hqt⟩
      have hfiltered : q ∈ init ++ [last] :=
        hinit ▸ List.mem_filter.mpr ⟨hq, by simpa using hqt⟩
      have hpair : (init ++ [last]).Pairwise (· ≤ ·) := hinit ▸ hsorted.filter _
      rcases List.mem_append.mp hfiltered with hq | hq
      · exact (List.pairwise_append.mp hpair).2.2 q hq last (List.mem_singleton_self _)
      · exact (List.mem_singleton.mp hq).le

/-- Either no pulse is after the instant, or the first one that is is the pulse after. -/
theorem pulseAfter_cases (hsorted : kept.Pairwise (· ≤ ·)) (windowEnd t : Int) :
    (pulseAfter kept windowEnd t = windowEnd ∧ ∀ q ∈ kept, q ≤ t) ∨
      IsLeast {q | q ∈ kept ∧ t < q} (pulseAfter kept windowEnd t) := by
  unfold pulseAfter
  cases hfirst : kept.find? (t < ·) with
  | none =>
      have hnone : ∀ q ∈ kept, q ≤ t := by simpa using List.find?_eq_none.mp hfirst
      exact Or.inl ⟨rfl, hnone⟩
  | some first =>
      obtain ⟨hlt, init, rest, rfl, hinit⟩ := List.find?_eq_some_iff_append.mp hfirst
      have hlt : t < first := by simpa using hlt
      have hinit : ∀ q ∈ init, q ≤ t := by simpa using hinit
      refine Or.inr ⟨⟨by simp, hlt⟩, ?_⟩
      rintro q ⟨hq, hqt⟩
      rcases List.mem_append.mp hq with hq | hq
      · exact absurd hqt (not_lt.mpr (hinit q hq))
      · rcases List.mem_cons.mp hq with rfl | hq
        · exact le_rfl
        · exact (List.pairwise_cons.mp (List.pairwise_append.mp hsorted).2.1).1 q hq

/-- The gap around an instant ends at the pulses around it. -/
theorem surrounds_reachPoints (ht : t ∈ (⟨windowStart, windowEnd⟩ : Span Int)) :
    Surrounds (reachPoints cfg pulses windowStart windowEnd) t
      (pulseBefore (debounce pulses cfg.debounce) windowStart t)
      (pulseAfter (debounce pulses cfg.debounce) windowEnd t) := by
  have hsorted := debounce_sorted pulses cfg.debounce
  constructor
  · rcases pulseBefore_cases hsorted windowStart t with ⟨heq, hnone⟩ | hlast
    · -- every kept pulse is after the instant, and so after the start of the window
      rw [heq]
      refine ⟨⟨mem_reachPoints.mpr (Or.inr (Or.inl ⟨rfl, ?_⟩)), ht.1⟩, ?_⟩
      · exact fun q hq => ht.1.trans (hnone q hq).le
      · rintro p ⟨hp, hle⟩
        rcases mem_reachPoints.mp hp with hp | ⟨rfl, -⟩ | ⟨rfl, -⟩
        · exact absurd hle (not_le.mpr (hnone p hp))
        · exact le_rfl
        · exact absurd ht.2 (not_lt.mpr hle)
    · refine ⟨⟨mem_reachPoints.mpr (Or.inl hlast.1.1), hlast.1.2⟩, ?_⟩
      rintro p ⟨hp, hle⟩
      rcases mem_reachPoints.mp hp with hp | ⟨rfl, hstart⟩ | ⟨rfl, -⟩
      · exact hlast.2 ⟨hp, hle⟩
      · exact hstart _ hlast.1.1
      · exact absurd ht.2 (not_lt.mpr hle)
  · rcases pulseAfter_cases hsorted windowEnd t with ⟨heq, hnone⟩ | hfirst
    · rw [heq]
      refine ⟨⟨mem_reachPoints.mpr (Or.inr (Or.inr ⟨rfl, ?_⟩)), ht.2⟩, ?_⟩
      · exact fun q hq => (hnone q hq).trans ht.2.le
      · rintro p ⟨hp, hlt⟩
        rcases mem_reachPoints.mp hp with hp | ⟨rfl, -⟩ | ⟨rfl, -⟩
        · exact absurd hlt (not_lt.mpr (hnone p hp))
        · exact absurd ht.1 (not_le.mpr hlt)
        · exact le_rfl
    · refine ⟨⟨mem_reachPoints.mpr (Or.inl hfirst.1.1), hfirst.1.2⟩, ?_⟩
      rintro p ⟨hp, hpt⟩
      rcases mem_reachPoints.mp hp with hp | ⟨rfl, -⟩ | ⟨rfl, hend⟩
      · exact hfirst.2 ⟨hp, hpt⟩
      · exact absurd ht.1 (not_le.mpr hpt)
      · exact hend _ hfirst.1.1

end Gaps

section Engine

theorem classifyStop_ne_plannedStop (span : Int) : classifyStop cfg span ≠ .plannedStop := by
  unfold classifyStop
  split <;> exact MachineState.noConfusion

theorem gapState_ne_plannedStop (span : Int) : gapState cfg span ≠ .plannedStop := by
  unfold gapState
  split
  · exact MachineState.noConfusion
  · exact classifyStop_ne_plannedStop span

theorem computeStates_of_no_pulse (hwin : windowStart < windowEnd)
    (hkept : debounce pulses cfg.debounce = []) :
    computeStates cfg pulses windowStart windowEnd =
      [⟨classifyStop cfg (windowEnd - windowStart), windowStart, windowEnd⟩] := by
  unfold computeStates
  rw [if_neg (not_le.mpr hwin), hkept]

theorem ne_nil_of_kept (hkept : debounce pulses cfg.debounce ≠ []) : pulses ≠ [] := by
  rintro rfl
  exact hkept rfl

/-- The engine plans nothing. -/
theorem computeStates_ne_plannedStop (pulses : List Int) (hcfg : 0 ≤ cfg.microStopAfter)
    (hwin : windowStart < windowEnd) :
    ∀ iv ∈ computeStates cfg pulses windowStart windowEnd, iv.state ≠ .plannedStop := by
  intro iv hiv hplanned
  by_cases hkept : debounce pulses cfg.debounce = []
  · rw [computeStates_of_no_pulse hwin hkept] at hiv
    rw [List.mem_singleton.mp hiv] at hplanned
    exact classifyStop_ne_plannedStop _ hplanned
  · have hlabelled := (computeStates_labelled hcfg hwin (ne_nil_of_kept hkept)).1
    have hstop : iv.state ≠ .running := by
      rw [hplanned]
      exact MachineState.noConfusion
    rw [(hlabelled.stops iv hiv hstop).2] at hplanned
    exact gapState_ne_plannedStop _ hplanned

/-- The engine and the overlay compute what is told. -/
theorem stateOf_told (hcfg : 0 ≤ cfg.microStopAfter) (hwin : windowStart < windowEnd)
    (ht : t ∈ (⟨windowStart, windowEnd⟩ : Span Int)) :
    stateOf (applyPlannedStops (computeStates cfg pulses windowStart windowEnd) planned) t =
      some (told cfg pulses planned windowStart windowEnd t) := by
  obtain ⟨a, ha, -, b, hb, -, htiled⟩ := computeStates_reach hcfg hwin pulses
  have htab : t ∈ (⟨a, b⟩ : Span Int) := ⟨ha.trans ht.1, ht.2.trans_le hb⟩
  have hraw := computeStates_ne_plannedStop pulses hcfg hwin
  rw [(applyPlannedStops_exact htiled hraw planned).2.1 t htab]
  unfold told
  dsimp only
  split
  · rfl
  · split
    · rename_i hkept
      rw [computeStates_of_no_pulse hwin hkept]
      exact (timeline_singleton hwin).stateOf_eq (List.mem_singleton_self _) ht
    · rename_i hkept
      have hlabelled := (computeStates_labelled hcfg hwin (ne_nil_of_kept hkept)).1
      exact hlabelled.stateOf_eq htiled htab (surrounds_reachPoints ht)

/-- Where the engine cuts, a gap that is a stop ends or starts. -/
theorem computeStates_meet (hcfg : 0 ≤ cfg.microStopAfter) (hwin : windowStart < windowEnd)
    {i j : StateInterval} (hi : i ∈ computeStates cfg pulses windowStart windowEnd)
    (hj : j ∈ computeStates cfg pulses windowStart windowEnd) (hmeet : i.finish = j.start) :
    (i.state ≠ .running ∨ j.state ≠ .running) ∧
      (i.state ≠ .running → Gap (reachPoints cfg pulses windowStart windowEnd) i.start i.finish ∧
        cfg.microStopAfter < i.finish - i.start) ∧
      (j.state ≠ .running → Gap (reachPoints cfg pulses windowStart windowEnd) j.start j.finish ∧
        cfg.microStopAfter < j.finish - j.start) := by
  obtain ⟨a, -, -, b, -, -, htiled⟩ := computeStates_reach hcfg hwin pulses
  have hkept : debounce pulses cfg.debounce ≠ [] := by
    intro hkept
    rw [computeStates_of_no_pulse hwin hkept] at hi hj
    rw [List.mem_singleton.mp hi, List.mem_singleton.mp hj] at hmeet
    exact hwin.ne' hmeet
  obtain ⟨hlabelled, hseparated⟩ := computeStates_labelled hcfg hwin (ne_nil_of_kept hkept)
  have hlong : ∀ iv ∈ computeStates cfg pulses windowStart windowEnd, iv.state ≠ .running →
      Gap (reachPoints cfg pulses windowStart windowEnd) iv.start iv.finish ∧
        cfg.microStopAfter < iv.finish - iv.start := by
    intro iv hiv hstop
    obtain ⟨hgap, hstate⟩ := hlabelled.stops iv hiv hstop
    refine ⟨hgap, not_le.mp fun hshort => hstop ?_⟩
    rw [hstate, gapState, if_pos hshort]
  refine ⟨?_, hlong i hi, hlong j hj⟩
  have hnext := htiled.rel_of_meet hseparated hi hj hmeet
  by_cases hrun : i.state = .running
  · exact Or.inr (hnext hrun)
  · exact Or.inl hrun

/-- The engine cuts at kept pulses only. -/
theorem computeStates_ends_kept (hcfg : 0 ≤ cfg.microStopAfter) (hwin : windowStart < windowEnd)
    {a b : Int} (ha : a ≤ windowStart ∧ (a = windowStart ∨ a ∈ debounce pulses cfg.debounce))
    (hb : windowEnd ≤ b ∧ (b = windowEnd ∨ b ∈ debounce pulses cfg.debounce))
    (htiled : Timeline a b (computeStates cfg pulses windowStart windowEnd)) :
    Ends (fun t => t = a ∨ t = b ∨ t ∈ debounce pulses cfg.debounce)
      (computeStates cfg pulses windowStart windowEnd) := by
  -- an end of the window is a point only where no pulse lies beyond it
  have hpoint : ∀ p ∈ reachPoints cfg pulses windowStart windowEnd,
      p = a ∨ p = b ∨ p ∈ debounce pulses cfg.debounce := by
    intro p hp
    rcases mem_reachPoints.mp hp with hp | ⟨rfl, hstart⟩ | ⟨rfl, hend⟩
    · exact Or.inr (Or.inr hp)
    · exact Or.inl (le_antisymm (ha.2.elim Eq.ge fun h => hstart a h) ha.1)
    · exact Or.inr (Or.inl (le_antisymm hb.1 (hb.2.elim Eq.le fun h => hend b h)))
  have hmeet {i j : StateInterval} (hi : i ∈ computeStates cfg pulses windowStart windowEnd)
      (hj : j ∈ computeStates cfg pulses windowStart windowEnd) (heq : i.finish = j.start) :
      j.start = a ∨ j.start = b ∨ j.start ∈ debounce pulses cfg.debounce := by
    obtain ⟨hone, hleft, hright⟩ := computeStates_meet hcfg hwin hi hj heq
    rcases hone with hstop | hstop
    · exact hpoint _ (heq ▸ (hleft hstop).1.right)
    · exact hpoint _ (hright hstop).1.left
  intro iv hiv
  constructor
  · rcases htiled.start_cases hiv with heq | ⟨i, hi, heq⟩
    · exact Or.inl heq
    · exact hmeet hi hiv heq
  · rcases htiled.end_cases hiv with heq | ⟨j, hj, heq⟩
    · exact Or.inr (Or.inl heq)
    · have heq : iv.finish = j.start := heq
      rw [heq]
      exact hmeet hiv hj heq

/-- Where the state goes on over a cut, a stop ends and another one starts. -/
theorem long_of_meet (hcfg : 0 ≤ cfg.microStopAfter) (hwin : windowStart < windowEnd)
    {i j : StateInterval}
    (hi : i ∈ applyPlannedStops (computeStates cfg pulses windowStart windowEnd) planned)
    (hj : j ∈ applyPlannedStops (computeStates cfg pulses windowStart windowEnd) planned)
    (hmeet : i.finish = j.start) (hsame : i.state = j.state) :
    ∃ l r, Gap (reachPoints cfg pulses windowStart windowEnd) l j.start ∧
      Gap (reachPoints cfg pulses windowStart windowEnd) j.start r ∧
      cfg.microStopAfter < j.start - l ∧ cfg.microStopAfter < r - j.start := by
  obtain ⟨a, -, -, b, -, -, htiled⟩ := computeStates_reach hcfg hwin pulses
  have hraw := computeStates_ne_plannedStop pulses hcfg hwin
  have hover := applyPlannedStops_overlaid planned htiled hraw
  have houtput := applyPlannedStops_timeline planned htiled
  obtain ⟨hpart, j₀, hj₀, hstart⟩ := houtput.rel_of_meet hover.joints hi hj hmeet hsame
  obtain ⟨-, i₀, hi₀, hstate, hlo, hhi⟩ := hover.parts i hi hpart
  obtain ⟨-, j₁, hj₁, hstate', hlo', hhi'⟩ := hover.parts j hj (hsame ▸ hpart)
  have hi_proper : i.start < i.finish := (houtput.bounds hi).2.1
  have hj_proper : j.start < j.finish := (houtput.bounds hj).2.1
  -- what is behind the cut is part of the interval that starts there
  obtain rfl : j₁ = j₀ := htiled.eq_of_mem (t := j.start) hj₁ hj₀
    ⟨hlo', hj_proper.trans_le hhi'⟩ ⟨hstart.le, hstart ▸ (htiled.bounds hj₀).2.1⟩
  -- and what is before it is part of one that ends there
  have hends : i₀.finish = j₁.start := by
    refine le_antisymm ?_ (hstart ▸ hmeet ▸ hhi)
    by_contra hover
    have hj₁_proper : j₁.start < j₁.finish := (htiled.bounds hj₁).2.1
    have hbefore : i₀.start < j₁.start := by omega
    obtain rfl : i₀ = j₁ := htiled.eq_of_mem (t := j₁.start) hi₀ hj₁
      ⟨hbefore.le, not_le.mp hover⟩ ⟨le_rfl, hj₁_proper⟩
    exact hbefore.ne rfl
  obtain ⟨hone, hleft, hright⟩ := computeStates_meet hcfg hwin hi₀ hj₁ hends
  have hstates : i₀.state = j₁.state := hstate.symm.trans (hsame.trans hstate')
  have hstop : i₀.state ≠ .running := hone.elim id fun h => hstates ▸ h
  have hleft := hleft hstop
  have hright := hright (hstates ▸ hstop)
  rw [hends, hstart] at hleft
  rw [hstart] at hright
  exact ⟨_, _, hleft.1, hright.1, hleft.2, hright.2⟩

end Engine

end ElectronixMes.Core
