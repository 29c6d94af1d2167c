import ElectronixMes.Core.Overlay

/-!
# More pulses

Each pulse of an ascending stream is kept or lies within the debounce of a kept one, so a
further pulse can put off a kept pulse by less than the debounce. A gap of the longer stream
that meets a running gap of the shorter one is then either hardly longer than it or met in
its first instants only.
-/

namespace ElectronixMes.Core

open ElectronixMes.Timeline

section Debounce

variable {minGap : Int} {pulses kept : List Int}

theorem subset_debounceStep (minGap : Int) (kept : List Int) (p : Int) :
    kept ⊆ debounceStep minGap kept p := by
  intro k hk
  unfold debounceStep
  split
  · split
    · exact hk
    · split
      · exact hk
      · exact List.mem_append_left _ hk
  · exact List.mem_append_left _ hk

theorem subset_foldl_debounceStep (minGap : Int) (kept pulses : List Int) :
    kept ⊆ pulses.foldl (debounceStep minGap) kept := by
  induction pulses generalizing kept with
  | nil => exact List.Subset.refl kept
  | cons p rest ih => exact List.Subset.trans (subset_debounceStep minGap kept p) (ih _)

/-- A pulse that is not before the kept ones is kept or close behind one of them. -/
theorem debounceStep_near (minGap : Int) {p : Int} (hle : ∀ k ∈ kept, k ≤ p) :
    ∃ k ∈ debounceStep minGap kept p, k ≤ p ∧ (p = k ∨ p - k < minGap) := by
  unfold debounceStep
  split
  · rename_i last hlast
    have hmem : last ∈ kept := List.mem_of_getLast? hlast
    split
    · rename_i hclose
      exact ⟨last, hmem, hle last hmem, Or.inr hclose⟩
    · rw [if_neg (not_lt.mpr (hle last hmem))]
      exact ⟨p, by simp, le_rfl, Or.inl rfl⟩
  · exact ⟨p, by simp, le_rfl, Or.inl rfl⟩

/-- Each pulse of an ascending stream is kept or close behind a kept one. -/
theorem debounce_near (minGap : Int) (hsorted : pulses.Pairwise (· ≤ ·)) {p : Int}
    (hp : p ∈ pulses) :
    ∃ k ∈ debounce pulses minGap, k ≤ p ∧ (p = k ∨ p - k < minGap) := by
  have hgen (kept : List Int) (hle : ∀ k ∈ kept, ∀ q ∈ pulses, k ≤ q) :
      ∃ k ∈ pulses.foldl (debounceStep minGap) kept, k ≤ p ∧ (p = k ∨ p - k < minGap) := by
    induction pulses generalizing kept with
    | nil => cases hp
    | cons q rest ih =>
        obtain ⟨hq, hrest⟩ := List.pairwise_cons.mp hsorted
        have hleq : ∀ k ∈ kept, k ≤ q := fun k hk => hle k hk q List.mem_cons_self
        rcases List.mem_cons.mp hp with rfl | hp
        · obtain ⟨k, hk, hnear⟩ := debounceStep_near minGap hleq
          exact ⟨k, subset_foldl_debounceStep minGap _ rest hk, hnear⟩
        · refine ih hrest hp _ ?_
          intro k hk r hr
          rcases List.mem_append.mp ((debounceStep_sublist minGap kept q).subset hk) with hk | hk
          · exact hle k hk r (List.mem_cons_of_mem q hr)
          · rw [List.mem_singleton.mp hk]
            exact hq r hr
  exact hgen [] fun k hk => absurd hk List.not_mem_nil

end Debounce

section Gaps

variable {cfg : StateConfig} {windowStart windowEnd : Int} {pulses pulses' : List Int}
  {a b c d t : Int}

theorem gapState_eq_running {span : Int} :
    gapState cfg span = .running ↔ span ≤ cfg.microStopAfter := by
  unfold gapState
  split
  · rename_i h
    exact iff_of_true rfl h
  · rename_i h
    exact iff_of_false (classifyStop_ne_running span) h

theorem mem_gapPoints {p : Int} :
    p ∈ gapPoints cfg pulses windowStart windowEnd ↔
      p = windowStart ∨ p ∈ debounce pulses cfg.debounce ∨ p = windowEnd := by
  simp [gapPoints]

/-- The gaps of two streams around one instant, when the second stream has the pulses of the
first: the second gap is hardly longer than the first one, or the instant is close behind
its start. -/
theorem gap_of_more_pulses (hsub : ∀ p ∈ pulses, p ∈ pulses')
    (hsorted : pulses'.Pairwise (· ≤ ·))
    (ht : t ∈ (⟨windowStart, windowEnd⟩ : Span Int))
    (hcd : Surrounds (gapPoints cfg pulses windowStart windowEnd) t c d)
    (hab : Surrounds (gapPoints cfg pulses' windowStart windowEnd) t a b) :
    b - a ≤ d - c ∨ t - a < cfg.debounce ∨ b - a < d - c + cfg.debounce := by
  have hin := hab.mem
  have hin' := hcd.mem
  -- a kept pulse of the first stream has one of the second stream close before it
  have hnear {p : Int} (hp : p ∈ debounce pulses cfg.debounce) (hpb : p < b) :
      p ≤ a ∨ p - a < cfg.debounce := by
    obtain ⟨k, hk, hkp, hclose⟩ := debounce_near cfg.debounce hsorted
      (hsub p ((debounce_sublist pulses cfg.debounce).subset hp))
    have hka : k ≤ a := by
      rcases hab.gap.between k (mem_gapPoints.mpr (Or.inr (Or.inl hk))) with hka | hbk
      · exact hka
      · exact absurd (hbk.trans hkp) (not_le.mpr hpb)
    rcases hclose with rfl | hclose
    · exact Or.inl hka
    · exact Or.inr (by omega)
  by_cases hd : d < b
  · -- the first gap ends inside the second one
    have hkept : d ∈ debounce pulses cfg.debounce := by
      have hbwe : b ≤ windowEnd :=
        hab.first.2 ⟨mem_gapPoints.mpr (Or.inr (Or.inr rfl)), ht.2⟩
      rcases mem_gapPoints.mp hcd.gap.right with rfl | hkept | rfl
      · exact absurd (hin'.2) (not_lt.mpr ht.1)
      · exact hkept
      · exact absurd hbwe (not_le.mpr hd)
    rcases hnear hkept hd with hda | hclose
    · exact absurd (hda.trans hin.1) (not_le.mpr hin'.2)
    · exact Or.inr (Or.inl ((sub_lt_sub_right hin'.2 a).trans hclose))
  · have hbd : b ≤ d := not_lt.mp hd
    by_cases hc : c ≤ a
    · exact Or.inl (by omega)
    · -- the first gap starts inside the second one
      have hkept : c ∈ debounce pulses cfg.debounce := by
        have hwsa : windowStart ≤ a := hab.last.2 ⟨mem_gapPoints.mpr (Or.inl rfl), ht.1⟩
        rcases mem_gapPoints.mp hcd.gap.left with rfl | hkept | rfl
        · exact absurd hwsa hc
        · exact hkept
        · exact absurd ht.2 (not_lt.mpr hin'.1)
      rcases hnear hkept (hin'.1.trans_lt hin.2) with hca | hclose
      · exact absurd hca hc
      · exact Or.inr (Or.inr (by omega))

/-- Where the second stream keeps what the first one keeps, its gaps are parts of the first
one's. -/
theorem gap_of_more_kept
    (hkept : ∀ k ∈ debounce pulses cfg.debounce, k ∈ debounce pulses' cfg.debounce)
    (hcd : Surrounds (gapPoints cfg pulses windowStart windowEnd) t c d)
    (hab : Surrounds (gapPoints cfg pulses' windowStart windowEnd) t a b) :
    b - a ≤ d - c := by
  have hmem {p : Int} (hp : p ∈ gapPoints cfg pulses windowStart windowEnd) :
      p ∈ gapPoints cfg pulses' windowStart windowEnd :=
    mem_gapPoints.mpr ((mem_gapPoints.mp hp).imp_right (Or.imp_left (hkept p)))
  have hca : c ≤ a := hab.last.2 ⟨hmem hcd.gap.left, hcd.mem.1⟩
  have hbd : b ≤ d := hab.first.2 ⟨hmem hcd.gap.right, hcd.mem.2⟩
  omega

end Gaps

section Evidence

variable {cfg : StateConfig} {windowStart windowEnd : Int} {pulses : List Int} {t : Int}

/-- A running instant stands in a gap of a stream that is short enough. -/
theorem running_gap (hcfg : 0 ≤ cfg.microStopAfter) (hwin : windowStart < windowEnd)
    (hp : ∀ p ∈ pulses, windowStart ≤ p ∧ p ≤ windowEnd)
    (hrun : stateOf (computeStates cfg pulses windowStart windowEnd) t = some .running) :
    t ∈ (⟨windowStart, windowEnd⟩ : Span Int) ∧ pulses ≠ [] ∧
      ∃ c d, Surrounds (gapPoints cfg pulses windowStart windowEnd) t c d ∧
        d - c ≤ cfg.microStopAfter := by
  obtain ⟨htiled, -, hgaps, hempty⟩ := computeStates_classifies cfg hcfg hwin hp
  have ht : t ∈ (⟨windowStart, windowEnd⟩ : Span Int) := by
    obtain ⟨iv, hfind, -⟩ := Option.map_eq_some_iff.mp hrun
    have hiv := htiled.bounds (List.mem_of_find?_eq_some hfind)
    have htiv : t ∈ iv.span := by simpa using List.find?_some hfind
    exact ⟨hiv.1.trans htiv.1, htiv.2.trans_le hiv.2.2⟩
  have hne : pulses ≠ [] := by
    intro hnil
    rw [hempty hnil, (timeline_singleton hwin).stateOf_eq (List.mem_singleton_self _) ht,
      Option.some.injEq] at hrun
    exact classifyStop_ne_running _ hrun
  obtain ⟨c, d, hcd, hstate⟩ := (hgaps hne).1 t ht
  rw [hstate, Option.some.injEq, gapState_eq_running] at hrun
  exact ⟨ht, hne, c, d, hcd, hrun⟩

/-- With a further pulse a running instant is still running, or in a stop that is shorter
than the micro-stop threshold and the debounce together or began less than the debounce
before; and where the kept pulses stay kept, it is still running. -/
theorem morePulses_keep_running (cfg : StateConfig) (hcfg : 0 ≤ cfg.microStopAfter)
    (hwin : windowStart < windowEnd) (before after : List Int) (extra : Int)
    (hsorted : (before ++ extra :: after).Pairwise (· ≤ ·))
    (hp : ∀ p ∈ before ++ extra :: after, windowStart ≤ p ∧ p ≤ windowEnd) :
    (∀ t, stateOf (computeStates cfg (before ++ after) windowStart windowEnd) t =
        some .running →
      stateOf (computeStates cfg (before ++ extra :: after) windowStart windowEnd) t =
          some .running ∨
        ∃ iv ∈ computeStates cfg (before ++ extra :: after) windowStart windowEnd,
          t ∈ iv.span ∧
            (iv.finish - iv.start < cfg.microStopAfter + cfg.debounce ∨
              t - iv.start < cfg.debounce)) ∧
      ((∀ k ∈ debounce (before ++ after) cfg.debounce,
          k ∈ debounce (before ++ extra :: after) cfg.debounce) →
        ∀ t, stateOf (computeStates cfg (before ++ after) windowStart windowEnd) t =
            some .running →
          stateOf (computeStates cfg (before ++ extra :: after) windowStart windowEnd) t =
            some .running) := by
  have hsub : ∀ p ∈ before ++ after, p ∈ before ++ extra :: after := by
    intro p hmem
    rcases List.mem_append.mp hmem with hmem | hmem
    · exact List.mem_append_left _ hmem
    · exact List.mem_append_right _ (List.mem_cons_of_mem extra hmem)
  obtain ⟨htiled, -, hgaps, -⟩ := computeStates_classifies cfg hcfg hwin hp
  obtain ⟨hstates, hstops⟩ := hgaps (List.append_ne_nil_of_right_ne_nil _ (List.cons_ne_nil _ _))
  constructor
  · intro t hrun
    obtain ⟨ht, -, c, d, hcd, hshort⟩ := running_gap hcfg hwin (fun p h => hp p (hsub p h)) hrun
    obtain ⟨a, b, hab, hstate⟩ := hstates t ht
    by_cases hstill : b - a ≤ cfg.microStopAfter
    · exact Or.inl (hstate.trans (congrArg some (gapState_eq_running.mpr hstill)))
    · obtain ⟨iv, hiv, htiv⟩ := htiled.exists_mem ht.1 ht.2
      have hstop : iv.state ≠ .running := by
        intro hrunning
        rw [htiled.stateOf_eq hiv htiv, hrunning, Option.some.injEq, eq_comm,
          gapState_eq_running] at hstate
        exact hstill hstate
      obtain ⟨rfl, rfl⟩ := ((hstops iv hiv hstop).surrounds htiv).unique hab
      refine Or.inr ⟨iv, hiv, htiv, ?_⟩
      rcases gap_of_more_pulses hsub hsorted ht hcd hab with hle | hclose | hlong
      · exact absurd (hle.trans hshort) hstill
      · exact Or.inr hclose
      · exact Or.inl (hlong.trans_le (add_le_add_left hshort _))
  · intro hkept t hrun
    obtain ⟨ht, -, c, d, hcd, hshort⟩ := running_gap hcfg hwin (fun p h => hp p (hsub p h)) hrun
    obtain ⟨a, b, hab, hstate⟩ := hstates t ht
    rw [hstate, gapState_eq_running.mpr ((gap_of_more_kept hkept hcd hab).trans hshort)]

/-- Pulses a minute apart, and one more between them. -/
theorem morePulses_keep_running_minute :
    stateOf (computeStates .default ([0] ++ 30000000000 :: [60000000000]) 0 60000000000)
        45000000000 =
      some .running := by
  refine (morePulses_keep_running .default (by decide) (by decide) [0] [60000000000]
    30000000000 (by decide) (by decide)).2 ?_ _ ?_
  · decide
  · decide

/-- A pulse at 0 s puts off the one at 1 s, and the minute to the next one becomes a stop. -/
theorem morePulses_stop :
    stateOf (computeStates .default ([] ++ [1000000000, 61000000000]) 0 200000000000)
        30000000000 = some .running ∧
      stateOf (computeStates .default ([] ++ 0 :: [1000000000, 61000000000]) 0 200000000000)
        30000000000 = some .microStop := by
  decide

end Evidence

end ElectronixMes.Core
