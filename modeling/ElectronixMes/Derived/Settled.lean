import ElectronixMes.Edge.Process

/-!
# Windows with settled edges

The ends of a window are cut to a microsecond when they are bound, and an interval that has
both of its ends in one microsecond is stored empty. That comes down to the stored pulses and
planned stops: an edge that was cut into the window must not be an instant where the state
that they tell changes.
-/

namespace ElectronixMes.Derived

open Db ElectronixMes.Core Edge Relational Timeline

/-- The state that the stored pulses and planned stops tell at an instant of a window. -/
def toldState (db : Database) (wc : String) (start finish t : Int) : MachineState :=
  told .default (fetchCyclePulses db wc start finish) (fetchPlannedIntervals db wc start finish)
    start finish t

/-- The window ends in a later microsecond than it starts in. Where an edge of it is bound to an
instant inside of it, the state goes on over that instant. -/
def EdgesSettled (db : Database) (wc : String) (start finish : Int) : Prop :=
  start < finish → toSql start < toSql finish ∧
    ∀ edge ∈ [ofSql (toSql start), ofSql (toSql finish)], start < edge → edge < finish →
      toldState db wc start finish (edge - 1) = toldState db wc start finish edge

instance (db : Database) (wc : String) (start finish : Int) :
    Decidable (EdgesSettled db wc start finish) :=
  inferInstanceAs (Decidable (start < finish → toSql start < toSql finish ∧
    ∀ edge ∈ [ofSql (toSql start), ofSql (toSql finish)], start < edge → edge < finish →
      toldState db wc start finish (edge - 1) = toldState db wc start finish edge))

/-- Every derived interval is still non-empty when it is stored. -/
def Resolved (db : Database) (wc : String) (start finish : Int) : Prop :=
  ∀ iv ∈ derivedStates db wc start finish, iv.start < iv.finish

variable {db : Database} {wc : String} {start finish t : Int}

/-- The edges of a window of whole microseconds are bound to themselves. -/
theorem edgesSettled_of_whole (db : Database) (wc : String) (m m' : Int) :
    EdgesSettled db wc (ofSql m) (ofSql m') := by
  intro hwin
  rw [toSql_ofSql, toSql_ofSql]
  refine ⟨ofSql_lt.mp hwin, ?_⟩
  intro edge hedge hlo hhi
  simp only [List.mem_cons, List.not_mem_nil, or_false] at hedge
  rcases hedge with rfl | rfl
  · exact absurd hlo (lt_irrefl _)
  · exact absurd hhi (lt_irrefl _)

section Told

/-- A computed interval has the told state at each of its instants. -/
theorem toldState_eq (ht : t ∈ (⟨start, finish⟩ : Span Int)) {iv : StateInterval}
    (hiv : iv ∈ computedStates db wc start finish) (hin : t ∈ iv.span) :
    toldState db wc start finish t = iv.state := by
  have hwin : start < finish := ht.1.trans_lt ht.2
  obtain ⟨a, b, -, -, htiled, -⟩ := computedStates_timeline db wc hwin
  have htold : stateOf (computedStates db wc start finish) t =
      some (toldState db wc start finish t) := stateOf_told (by decide) hwin ht
  have hstate := (htiled.stateOf_eq hiv hin).symm.trans htold
  exact (Option.some.inj hstate).symm

theorem exists_computed (db : Database) (wc : String) (ht : t ∈ (⟨start, finish⟩ : Span Int)) :
    ∃ iv ∈ computedStates db wc start finish, t ∈ iv.span := by
  obtain ⟨a, b, ⟨ha, -⟩, ⟨hb, -⟩, htiled, -⟩ :=
    computedStates_timeline db wc (ht.1.trans_lt ht.2)
  exact htiled.exists_mem (ha.trans ht.1) (ht.2.trans_le hb)

/-- An interval ends where the told state changes, and another one starts. -/
theorem ends_of_told_ne (hlo : start < t) (hhi : t < finish)
    (hne : toldState db wc start finish (t - 1) ≠ toldState db wc start finish t) :
    ∃ i ∈ computedStates db wc start finish, ∃ j ∈ computedStates db wc start finish,
      i.finish = t ∧ j.start = t := by
  have hbefore : t - 1 ∈ (⟨start, finish⟩ : Span Int) := Span.pred_mem hlo hhi.le
  have hat : t ∈ (⟨start, finish⟩ : Span Int) := ⟨hlo.le, hhi⟩
  obtain ⟨i, hi, htoi⟩ := exists_computed db wc hbefore
  obtain ⟨j, hj, htoj⟩ := exists_computed db wc hat
  rw [toldState_eq hbefore hi htoi, toldState_eq hat hj htoj] at hne
  have hit : t ≤ i.finish := Int.le_of_sub_one_lt htoi.2
  have hjt : j.start ≤ t := htoj.1
  refine ⟨i, hi, j, hj, ?_, ?_⟩
  · by_contra hover
    have hin : t ∈ i.span := ⟨htoi.1.trans (sub_one_lt t).le, lt_of_le_of_ne hit (Ne.symm hover)⟩
    exact hne ((toldState_eq hat hi hin).symm.trans (toldState_eq hat hj htoj))
  · by_contra hover
    have hin : t - 1 ∈ j.span := Span.pred_mem (lt_of_le_of_ne hjt hover) htoj.2.le
    exact hne ((toldState_eq hbefore hi htoi).symm.trans (toldState_eq hbefore hj hin))

end Told

section Pulses

/-- The pulses of a window lie within the microseconds of its edges. -/
theorem pulse_bounds {p : Int}
    (hp : p ∈ debounce (fetchCyclePulses db wc start finish) StateConfig.default.debounce) :
    ofSql (toSql start) ≤ p ∧ p ≤ ofSql (toSql finish) := by
  obtain ⟨m, rfl, hlo, hhi⟩ := mem_fetchCyclePulses ((debounce_sublist _ _).subset hp)
  exact ⟨ofSql_le.mpr hlo, ofSql_le.mpr hhi⟩

/-- Intervals of one state do not meet within a microsecond of an edge of the window. -/
theorem state_ne_of_meet {i j : StateInterval} (hi : i ∈ computedStates db wc start finish)
    (hj : j ∈ computedStates db wc start finish) (hmeet : i.finish = j.start)
    (hedge : j.start = ofSql (toSql start) ∧ start < j.start ∨
      j.start = ofSql (toSql finish) ∧ j.start < finish) : i.state ≠ j.state := by
  intro hsame
  obtain ⟨l, r, hleft, hright, hlong, hlong'⟩ :=
    long_of_meet (by decide) (window_of_mem hi) hi hj hmeet hsame
  have hminute : StateConfig.default.microStopAfter = 60000000000 := rfl
  rw [hminute] at hlong hlong'
  rcases hedge with ⟨hstart, hlt⟩ | ⟨hfinish, hlt⟩
  · -- no pulse lies before the start of the window, which is then a point itself
    have hbetween := hleft.between start (mem_reachPoints.mpr (Or.inr (Or.inl ⟨rfl, fun q hq =>
      (hlt.le.trans hstart.le).trans (pulse_bounds hq).1⟩)))
    have hcut := toSql_bounds start
    rcases hbetween with hle | hge <;> omega
  · have hbetween := hright.between finish (mem_reachPoints.mpr (Or.inr (Or.inr ⟨rfl, fun q hq =>
      ((pulse_bounds hq).2.trans hfinish.ge).trans hlt.le⟩)))
    have hcut := toSql_bounds finish
    rcases hbetween with hle | hge <;> omega

end Pulses

/-- A window without settled edges derives an interval within a microsecond. -/
theorem edgesSettled_of_resolved (h : Resolved db wc start finish) :
    EdgesSettled db wc start finish := by
  intro hwin
  have hproper {u : StateInterval} (hu : u ∈ computedStates db wc start finish) :
      toSql start ≤ toSql u.start ∧ toSql u.start < toSql u.finish ∧
        toSql u.finish ≤ toSql finish := by
    have hiv := mem_derivedStates.mpr ⟨u, hu, rfl⟩
    exact ⟨(derivedStates_bounds hiv).1, h _ hiv, (derivedStates_bounds hiv).2.2⟩
  constructor
  · obtain ⟨u, hu⟩ := List.exists_mem_of_ne_nil _ (computedStates_ne_nil db wc hwin)
    obtain ⟨hlo, hlt, hhi⟩ := hproper hu
    exact (hlo.trans_lt hlt).trans_le hhi
  · intro edge hedge hlo hhi
    by_contra hne
    obtain ⟨i, hi, j, hj, hend, hstart⟩ := ends_of_told_ne hlo hhi hne
    obtain ⟨hilo, hilt, -⟩ := hproper hi
    obtain ⟨-, hjlt, hjhi⟩ := hproper hj
    simp only [List.mem_cons, List.not_mem_nil, or_false] at hedge
    rcases hedge with rfl | rfl
    · rw [hend, toSql_ofSql] at hilt
      exact absurd hilt (not_lt.mpr hilo)
    · rw [hstart, toSql_ofSql] at hjlt
      exact absurd hjlt (not_lt.mpr hjhi)

section Settled

/-- With settled edges the state goes on where an edge is bound inside the window. -/
theorem EdgesSettled.state_eq (h : EdgesSettled db wc start finish) {i j : StateInterval}
    (hi : i ∈ computedStates db wc start finish) (hj : j ∈ computedStates db wc start finish)
    (hmeet : i.finish = j.start) (hmem : j.start ∈ [ofSql (toSql start), ofSql (toSql finish)])
    (hlo : start < j.start) (hhi : j.start < finish) : i.state = j.state := by
  obtain ⟨a, b, -, -, htiled, -⟩ := computedStates_timeline db wc (hlo.trans hhi)
  have hi_proper : i.start < i.finish := (htiled.bounds hi).2.1
  have hj_proper : j.start < j.finish := (htiled.bounds hj).2.1
  calc
    i.state = toldState db wc start finish (j.start - 1) :=
      (toldState_eq (Span.pred_mem hlo hhi.le) hi
        (Span.pred_mem (hi_proper.trans_le hmeet.le) hmeet.ge)).symm
    _ = toldState db wc start finish j.start := (h (hlo.trans hhi)).2 _ hmem hlo hhi
    _ = j.state := toldState_eq ⟨hlo.le, hhi⟩ hj ⟨le_rfl, hj_proper⟩

/-- What ends in the microsecond of the start ends inside the window, where that is bound. -/
theorem finish_of_bound (hlater : toSql start < toSql finish)
    {u : StateInterval} (hu : u ∈ computedStates db wc start finish)
    (hbound : toSql u.finish = toSql start) :
    u.finish = ofSql (toSql start) ∧ start < u.finish ∧ u.finish < finish ∧
      ∃ j ∈ computedStates db wc start finish, u.finish = j.start := by
  obtain ⟨a, b, ⟨-, ha⟩, ⟨-, hb⟩, htiled, hends⟩ := computedStates_timeline db wc (window_of_mem hu)
  obtain ⟨hau, hproper, -⟩ := htiled.bounds hu
  have hafter : a < u.finish := hau.trans_lt hproper
  have hne : u.finish ≠ b := by
    intro heq
    rw [heq, toSql_of_edge hb] at hbound
    exact hlater.ne' hbound
  have hcut : u.finish = ofSql (toSql start) := by
    rcases (hends u hu).2 with heq | heq | ⟨m, hm⟩
    · exact absurd heq hafter.ne'
    · exact absurd heq hne
    · rw [hm, toSql_ofSql] at hbound
      rw [hm, hbound]
  refine ⟨hcut, ?_, ?_, (htiled.end_cases hu).resolve_left hne⟩
  · rcases ha with rfl | hstart
    · exact hafter
    · exact absurd (hstart.trans hcut.symm) hafter.ne
  · rw [hcut]
    exact ofSql_lt_of_lt_toSql hlater

/-- What starts in the microsecond of the end starts inside the window, where that is bound. -/
theorem start_of_bound (hlater : toSql start < toSql finish)
    {u : StateInterval} (hu : u ∈ computedStates db wc start finish)
    (hbound : toSql u.start = toSql finish) :
    u.start = ofSql (toSql finish) ∧ start < u.start ∧ u.start < finish ∧
      ∃ i ∈ computedStates db wc start finish, i.finish = u.start := by
  obtain ⟨a, b, ⟨-, ha⟩, ⟨-, hb⟩, htiled, hends⟩ := computedStates_timeline db wc (window_of_mem hu)
  obtain ⟨-, hproper, hub⟩ := htiled.bounds hu
  have hbefore : u.start < b := hproper.trans_le hub
  have hne : u.start ≠ a := by
    intro heq
    rw [heq, toSql_of_edge ha] at hbound
    exact hlater.ne hbound
  have hcut : u.start = ofSql (toSql finish) := by
    rcases (hends u hu).1 with heq | heq | ⟨m, hm⟩
    · exact absurd heq hne
    · exact absurd heq hbefore.ne
    · rw [hm, toSql_ofSql] at hbound
      rw [hm, hbound]
  refine ⟨hcut, ?_, ?_, (htiled.start_cases hu).resolve_left hne⟩
  · rw [hcut]
    exact lt_ofSql_of_toSql_lt hlater
  · rcases hb with rfl | hfinish
    · exact hbefore
    · exact absurd (hcut.trans hfinish.symm) hbefore.ne

/-- With settled edges the timeline is not cut within a microsecond of an edge. -/
theorem resolved_of_edgesSettled (h : EdgesSettled db wc start finish) :
    Resolved db wc start finish := by
  intro iv hiv
  by_contra hnot
  have hempty : iv.start = iv.finish := (derivedStates_bounds hiv).2.1.antisymm (not_lt.mp hnot)
  have hplace := derivedStates_empty hiv hempty
  obtain ⟨u, hu, rfl⟩ := mem_derivedStates.mp hiv
  rcases hplace with hplace | hplace
  · -- the interval starts with the window, and the next one where its edge is bound
    obtain ⟨hcut, hlo, hhi, j, hj, hmeet⟩ :=
      finish_of_bound (h (window_of_mem hu)).1 hu (hempty.symm.trans hplace)
    rw [hmeet] at hcut hlo hhi
    exact state_ne_of_meet hu hj hmeet (Or.inl ⟨hcut, hlo⟩)
      (h.state_eq hu hj hmeet (by simp [hcut]) hlo hhi)
  · obtain ⟨hcut, hlo, hhi, i, hi, hmeet⟩ := start_of_bound (h (window_of_mem hu)).1 hu hplace
    exact state_ne_of_meet hi hu hmeet (Or.inr ⟨hcut, hhi⟩)
      (h.state_eq hi hu hmeet (by simp [hcut]) hlo hhi)

end Settled

/-- No interval lies within a microsecond exactly when the edges of the window are settled. -/
theorem resolved_iff : Resolved db wc start finish ↔ EdgesSettled db wc start finish :=
  ⟨edgesSettled_of_resolved, resolved_of_edgesSettled⟩

section Decoded

/-- The instants of the code that a stored span contains. -/
def decoded (s : Span Int) : Span Int := s.map ofSql

theorem mem_decoded {s : Span Int} : t ∈ decoded s ↔ t / 1000 ∈ s := by
  simp only [decoded, Span.map, Span.mem_def, ofSql]
  omega

/-- The instant of a window that is nearest to another one. -/
def nearest (start finish t : Int) : Int := max start (min t (finish - 1))

/-- An unplanned stop is told at an instant of a window. -/
def ToldDowntime (db : Database) (wc : String) (start finish t : Int) : Prop :=
  (toldState db wc start finish t).isStop = true ∧ toldState db wc start finish t ≠ .plannedStop

theorem nearest_mem (hwin : start < finish) :
    nearest start finish t ∈ (⟨start, finish⟩ : Span Int) :=
  ⟨le_max_left _ _, max_lt hwin ((min_le_right _ _).trans_lt (sub_one_lt finish))⟩

/-- A stored interval that contains an instant comes from a computed one with the nearest instant
of the window. -/
theorem nearest_mem_span {u : StateInterval} (hu : u ∈ computedStates db wc start finish)
    (ht : t ∈ decoded (bound u).span) :
    nearest start finish t ∈ u.span := by
  have hwin := window_of_mem hu
  obtain ⟨a, b, ⟨hale, ha⟩, ⟨hble, hb⟩, htiled, hends⟩ := computedStates_timeline db wc hwin
  obtain ⟨hau, hproper, hub⟩ := htiled.bounds hu
  have hbefore : u.start < b := hproper.trans_le hub
  have hafter : a < u.finish := hau.trans_lt hproper
  -- an end that is not one of the timeline is decoded, and so on its side of the cut instants
  constructor
  · rcases (hends u hu).1 with heq | heq | ⟨m, hm⟩
    · exact (heq.le.trans hale).trans (le_max_left _ _)
    · exact absurd heq hbefore.ne
    · have hle : ofSql (toSql u.start) ≤ t := ht.1
      rw [hm, toSql_ofSql] at hle
      have hlt : ofSql m < finish := by
        rcases hb with rfl | hcut
        · exact hm ▸ hbefore
        · rw [hm, hcut] at hbefore
          exact ofSql_lt_of_lt_toSql (ofSql_lt.mp hbefore)
      rw [show u.span.lo = ofSql m from hm]
      exact (le_min hle (Int.le_sub_one_of_lt hlt)).trans (le_max_right _ _)
  · rcases (hends u hu).2 with heq | heq | ⟨m, hm⟩
    · exact absurd heq hafter.ne'
    · exact (nearest_mem hwin).2.trans_le (hble.trans heq.ge)
    · have hlt : t < ofSql (toSql u.finish) := ht.2
      rw [hm, toSql_ofSql] at hlt
      have hstart : start < ofSql m := by
        rcases ha with rfl | hcut
        · exact hm ▸ hafter
        · rw [hm, hcut] at hafter
          exact lt_ofSql_of_toSql_lt (ofSql_lt.mp hafter)
      rw [show u.span.hi = ofSql m from hm]
      exact max_lt hstart ((min_le_left _ _).trans_lt hlt)

/-- A stored interval tells what the nearest instants of the window tell. -/
theorem toldState_nearest {iv : StateInterval} (hiv : iv ∈ derivedStates db wc start finish)
    (ht : t ∈ decoded iv.span) :
    toldState db wc start finish (nearest start finish t) = iv.state := by
  obtain ⟨u, hu, rfl⟩ := mem_derivedStates.mp hiv
  have htold := toldState_eq (nearest_mem (window_of_mem hu)) hu (nearest_mem_span hu ht)
  exact htold

/-- The stored intervals leave nothing of the bound window out. -/
theorem exists_derived (db : Database) (wc : String)
    (ht : t ∈ decoded ⟨toSql start, toSql finish⟩) :
    ∃ iv ∈ derivedStates db wc start finish, t ∈ decoded iv.span := by
  obtain ⟨hlo, hhi⟩ := mem_decoded.mp ht
  have hwin : start < finish := by
    by_contra hge
    exact absurd (hlo.trans_lt hhi) (not_lt.mpr (toSql_mono (not_lt.mp hge)))
  obtain ⟨a, b, ⟨-, ha⟩, ⟨-, hb⟩, htiled, -⟩ := computedStates_timeline db wc hwin
  obtain ⟨u, hu, hmem⟩ := htiled.exists_mem_map toSql ((toSql_of_edge ha).le.trans hlo)
    (hhi.trans_le (toSql_of_edge hb).ge)
  exact ⟨bound u, mem_derivedStates.mpr ⟨u, hu, rfl⟩, mem_decoded.mpr hmem⟩

theorem toldDowntime_nearest (ht : t ∈ decoded ⟨toSql start, toSql finish⟩) :
    ToldDowntime db wc start finish (nearest start finish t) ↔
      ∃ iv ∈ detectedStops db wc start finish, t ∈ decoded iv.span := by
  have hdowntime {iv : StateInterval} (hiv : iv ∈ derivedStates db wc start finish)
      (htiv : t ∈ decoded iv.span) :
      ToldDowntime db wc start finish (nearest start finish t) ↔ isDowntime iv = true := by
    unfold ToldDowntime isDowntime
    rw [toldState_nearest hiv htiv, Bool.and_eq_true, decide_eq_true_eq]
  constructor
  · intro hdown
    obtain ⟨iv, hiv, htiv⟩ := exists_derived db wc ht
    exact ⟨iv, List.mem_filter.mpr ⟨hiv, (hdowntime hiv htiv).mp hdown⟩, htiv⟩
  · rintro ⟨iv, hiv, htiv⟩
    exact (hdowntime (mem_detectedStops hiv) htiv).mpr (List.mem_filter.mp hiv).2

end Decoded

end ElectronixMes.Derived
