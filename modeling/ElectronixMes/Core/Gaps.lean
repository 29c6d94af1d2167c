import ElectronixMes.Core.StateMachine
import ElectronixMes.Timeline.Labels
import Mathlib.Data.List.Chain

/-!
# The state engine classifies gaps

The kept pulses and the two ends of the window cut it into gaps, and the state at an
instant is told by the length of the gap around it. The walk over the pulses says the
same with two cursors: it closes a gap longer than the micro-stop threshold as a stop of
its own and joins the shorter ones into running intervals.
-/

namespace ElectronixMes.Core

open ElectronixMes.Timeline

/-- The state of a gap by its length. -/
def gapState (cfg : StateConfig) (span : Int) : MachineState :=
  if span ≤ cfg.microStopAfter then .running else classifyStop cfg span

/-- The ends of the window and the kept pulses between them. -/
def gapPoints (cfg : StateConfig) (pulses : List Int) (windowStart windowEnd : Int) : List Int :=
  windowStart :: debounce pulses cfg.debounce ++ [windowEnd]

/-- The kept pulses, and each end of the window that none of them lies beyond. -/
def reachPoints (cfg : StateConfig) (pulses : List Int) (windowStart windowEnd : Int) : List Int :=
  (if ∃ p ∈ debounce pulses cfg.debounce, p < windowStart then [] else [windowStart]) ++
    debounce pulses cfg.debounce ++
      if ∃ p ∈ debounce pulses cfg.debounce, windowEnd < p then [] else [windowEnd]

/-- The state of the interval that contains an instant. -/
def stateOf (out : List StateInterval) (t : Int) : Option MachineState :=
  (out.find? fun iv => t ∈ iv.span).map StateInterval.state

theorem Timeline.stateOf_eq {a b t : Int} {out : List StateInterval} (h : Timeline a b out)
    {iv : StateInterval} (hiv : iv ∈ out) (ht : t ∈ iv.span) : stateOf out t = some iv.state := by
  rw [stateOf, h.find?_eq hiv ht, Option.map_some]

/-- Not both of two neighbours are running. -/
def Separated (out : List StateInterval) : Prop :=
  out.IsChain fun i j => i.state = .running → j.state ≠ .running

/-- Stops are single gaps, and running intervals meet no gap that is a stop. -/
structure Labelled (cfg : StateConfig) (points : List Int) (out : List StateInterval) :
    Prop where
  stops : ∀ iv ∈ out, iv.state ≠ .running →
    Gap points iv.start iv.finish ∧ iv.state = gapState cfg (iv.finish - iv.start)
  runs : ∀ iv ∈ out, iv.state = .running → ∀ a b, Gap points a b → a < iv.finish →
    iv.start < b → b - a ≤ cfg.microStopAfter

section Labelled

variable {cfg : StateConfig} {points : List Int} {out : List StateInterval}

theorem gapState_of_lt {span : Int} (h : cfg.microStopAfter < span) :
    gapState cfg span = classifyStop cfg span := if_neg (by omega)

theorem classifyStop_ne_running (span : Int) : classifyStop cfg span ≠ .running := by
  unfold classifyStop
  split <;> exact MachineState.noConfusion

theorem Labelled.nil : Labelled cfg points [] :=
  ⟨fun _ h => absurd h List.not_mem_nil, fun _ h => absurd h List.not_mem_nil⟩

/-- A new last point adds a gap behind everything labelled so far. -/
theorem Labelled.concat {last p : Int} (h : Labelled cfg points out)
    (hle : ∀ q ∈ points, q ≤ last) (hlast : last ∈ points) (hp : last ≤ p)
    (hout : ∀ iv ∈ out, iv.finish ≤ last) : Labelled cfg (points ++ [p]) out where
  stops := by
    intro iv hiv hstop
    obtain ⟨hgap, hstate⟩ := h.stops iv hiv hstop
    exact ⟨(gap_concat hle hlast hp).mpr (Or.inl hgap), hstate⟩
  runs := by
    intro iv hiv hrun a b hgap ha hb
    rcases (gap_concat hle hlast hp).mp hgap with hgap | ⟨rfl, -, -⟩
    · exact h.runs iv hiv hrun a b hgap ha hb
    · exact absurd (hout iv hiv) (not_le.mpr ha)

theorem Labelled.push {iv : StateInterval} (h : Labelled cfg points out)
    (hiv : Labelled cfg points [iv]) : Labelled cfg points (out ++ [iv]) where
  stops := by
    rw [List.forall_mem_append]
    exact ⟨h.stops, hiv.stops⟩
  runs := by
    rw [List.forall_mem_append]
    exact ⟨h.runs, hiv.runs⟩

theorem Labelled.pushStop {a b : Int} (h : Labelled cfg points out) (hgap : Gap points a b)
    (hlong : cfg.microStopAfter < b - a) :
    Labelled cfg points (out ++ [⟨classifyStop cfg (b - a), a, b⟩]) := by
  apply h.push
  constructor
  · intro iv hiv _
    obtain rfl := List.mem_singleton.mp hiv
    exact ⟨hgap, (gapState_of_lt hlong).symm⟩
  · intro iv hiv hrun
    obtain rfl := List.mem_singleton.mp hiv
    exact absurd hrun (classifyStop_ne_running _)

theorem Labelled.pushRunning {start finish : Int} (h : Labelled cfg points out)
    (hshort : ∀ a b, Gap points a b → a < finish → start < b → b - a ≤ cfg.microStopAfter) :
    Labelled cfg points (pushRunning out start finish) := by
  unfold Core.pushRunning
  split
  · apply h.push
    constructor
    · intro iv hiv hstop
      obtain rfl := List.mem_singleton.mp hiv
      exact absurd rfl hstop
    · intro iv hiv _
      obtain rfl := List.mem_singleton.mp hiv
      exact hshort
  · exact h

end Labelled

section Separated

variable {out : List StateInterval} {start finish : Int}

/-- Nothing, or a list that ends in a stop. -/
def EndsInStop (out : List StateInterval) : Prop :=
  ∀ iv ∈ out.getLast?, iv.state ≠ .running

theorem EndsInStop.push (out : List StateInterval) {iv : StateInterval}
    (h : iv.state ≠ .running) : EndsInStop (out ++ [iv]) := by
  intro i hi
  rw [List.getLast?_append, List.getLast?_singleton, Option.some_or] at hi
  obtain rfl := Option.some.inj hi
  exact h

theorem Separated.pushStop {iv : StateInterval} (h : Separated out)
    (hstop : iv.state ≠ .running) : Separated (out ++ [iv]) := by
  apply List.isChain_append.mpr
  refine ⟨h, List.isChain_singleton iv, ?_⟩
  intro i _ j hj _
  obtain rfl := Option.some.inj hj
  exact hstop

/-- Behind a stop a running interval may follow. -/
theorem Separated.pushRunning (h : Separated out) (hstop : EndsInStop out) :
    Separated (pushRunning out start finish) := by
  unfold Core.pushRunning
  split
  · apply List.isChain_append.mpr
    refine ⟨h, List.isChain_singleton _, ?_⟩
    intro i hi j _ hrun
    exact absurd hrun (hstop i hi)
  · exact h

end Separated

section Walk

variable {cfg : StateConfig} {windowStart windowEnd : Int} {points : List Int} {w : Walk}

/-- Where the walk stands after the points: `last` is the last of them, the closed
intervals are labelled and end there at the latest, and the gaps since `runStart` are short. -/
structure Walk.Follows (cfg : StateConfig) (points : List Int) (w : Walk) : Prop where
  labelled : Labelled cfg points w.out
  separated : Separated w.out
  stopped : EndsInStop w.out
  closed : ∀ iv ∈ w.out, iv.finish ≤ w.last
  short : ∀ a b, Gap points a b → w.runStart < b → b - a ≤ cfg.microStopAfter
  last_mem : w.last ∈ points
  le_last : ∀ q ∈ points, q ≤ w.last

/-- Nothing is closed yet, and the window starts at the first point or after it. -/
theorem Walk.Follows.start (cfg : StateConfig) {windowStart first : Int}
    (h : first ≤ windowStart) : Walk.Follows cfg [first] ⟨[], windowStart, first⟩ where
  labelled := .nil
  separated := .nil
  stopped := fun _ h => absurd h (Option.not_mem_none _)
  closed := fun _ h => absurd h List.not_mem_nil
  short := by
    intro a b hgap hb
    rw [List.mem_singleton.mp hgap.right] at hb
    exact absurd (hb.trans_le h) (lt_irrefl _)
  last_mem := List.mem_singleton_self _
  le_last := fun q hq => (List.mem_singleton.mp hq).le

/-- The intervals that are closed when the gap behind `last` is a stop. -/
theorem Walk.Follows.close (h : w.Follows cfg points) {p : Int} (hcfg : 0 ≤ cfg.microStopAfter)
    (hp : w.last ≤ p) (hlong : cfg.microStopAfter < p - w.last) :
    Labelled cfg (points ++ [p]) (pushRunning w.out w.runStart w.last ++
        [⟨classifyStop cfg (p - w.last), w.last, p⟩]) ∧
      Separated (pushRunning w.out w.runStart w.last ++
        [⟨classifyStop cfg (p - w.last), w.last, p⟩]) := by
  have hconcat {a b : Int} := gap_concat (a := a) (b := b) h.le_last h.last_mem hp
  constructor
  · apply Labelled.pushStop
    · apply Labelled.pushRunning
      · exact h.labelled.concat h.le_last h.last_mem hp h.closed
      · intro a b hgap ha hb
        rcases hconcat.mp hgap with hgap | ⟨rfl, -, -⟩
        · exact h.short a b hgap hb
        · exact absurd ha (lt_irrefl _)
    · exact hconcat.mpr (Or.inr ⟨rfl, rfl, by omega⟩)
    · exact hlong
  · exact (h.separated.pushRunning h.stopped).pushStop (classifyStop_ne_running _)

theorem finish_le_pushRunning {start finish c : Int} (h : ∀ iv ∈ out, iv.finish ≤ c)
    (hfinish : finish ≤ c) : ∀ iv ∈ pushRunning out start finish, iv.finish ≤ c := by
  unfold pushRunning
  split
  · rw [List.forall_mem_append, List.forall_mem_singleton]
    exact ⟨h, hfinish⟩
  · exact h

/-- The gaps since `runStart`, when the one behind `last` is short too. -/
theorem Walk.Follows.extend (h : w.Follows cfg points) {p : Int} (hp : w.last ≤ p)
    (hshort : p - w.last ≤ cfg.microStopAfter) :
    ∀ a b, Gap (points ++ [p]) a b → w.runStart < b → b - a ≤ cfg.microStopAfter := by
  intro a b hgap hb
  rcases (gap_concat h.le_last h.last_mem hp).mp hgap with hgap | ⟨rfl, rfl, -⟩
  · exact h.short a b hgap hb
  · exact hshort

theorem Walk.Follows.step (h : w.Follows cfg points) {p : Int} (hcfg : 0 ≤ cfg.microStopAfter)
    (hp : w.last ≤ p) : (walkStep cfg w p).Follows cfg (points ++ [p]) := by
  have hmem : p ∈ points ++ [p] := List.mem_append_right _ (List.mem_singleton_self p)
  have hle : ∀ q ∈ points ++ [p], q ≤ p := by
    rw [List.forall_mem_append, List.forall_mem_singleton]
    exact ⟨fun q hq => (h.le_last q hq).trans hp, le_rfl⟩
  unfold walkStep
  dsimp only
  split
  · rename_i hshort
    exact
      { labelled := h.labelled.concat h.le_last h.last_mem hp h.closed
        separated := h.separated
        stopped := h.stopped
        closed := fun iv hiv => (h.closed iv hiv).trans hp
        short := h.extend hp hshort
        last_mem := hmem
        le_last := hle }
  · rename_i hlong
    obtain ⟨hlabelled, hseparated⟩ := h.close hcfg hp (by omega)
    refine
      { labelled := hlabelled
        separated := hseparated
        stopped := .push _ (classifyStop_ne_running _)
        closed := ?_
        short := ?_
        last_mem := hmem
        le_last := hle }
    · rw [List.forall_mem_append, List.forall_mem_singleton]
      refine ⟨finish_le_pushRunning ?_ hp, le_rfl⟩
      intro iv hiv
      exact (h.closed iv hiv).trans hp
    · intro a b hgap hb
      exact absurd (hle b hgap.right) (not_le.mpr hb)

theorem Walk.Follows.foldl (h : w.Follows cfg points) (hcfg : 0 ≤ cfg.microStopAfter)
    {pulses : List Int} (hsorted : (w.last :: pulses).Pairwise (· ≤ ·)) :
    (pulses.foldl (walkStep cfg) w).Follows cfg (points ++ pulses) := by
  induction pulses generalizing w points with
  | nil =>
      rw [List.append_nil]
      exact h
  | cons p rest ih =>
      obtain ⟨hle, hrest⟩ := List.pairwise_cons.mp hsorted
      rw [List.append_cons]
      apply ih
      · exact h.step hcfg (hle p List.mem_cons_self)
      · rw [walkStep_last]
        exact hrest

/-- The span before the first pulse is a step of the walk from the window's start. -/
theorem leading_eq_walkStep (first windowStart : Int) :
    leading cfg first windowStart = walkStep cfg ⟨[], windowStart, windowStart⟩ first := by
  unfold leading walkStep pushRunning
  simp

theorem Walk.Follows.trailing (h : w.Follows cfg points) (hcfg : 0 ≤ cfg.microStopAfter)
    (hend : w.last ≤ windowEnd) :
    Labelled cfg (points ++ [windowEnd]) (trailing cfg windowEnd w) ∧
      Separated (trailing cfg windowEnd w) := by
  unfold Core.trailing
  split
  · rename_i hshort
    constructor
    · apply Labelled.pushRunning
      · exact h.labelled.concat h.le_last h.last_mem hend h.closed
      · intro a b hgap _ hb
        exact h.extend hend hshort a b hgap hb
    · exact h.separated.pushRunning h.stopped
  · exact h.close hcfg hend (by omega)

/-- Behind the end of the window a pulse leaves nothing to close. -/
theorem Walk.Follows.trailing_of_lt (h : w.Follows cfg points) (hcfg : 0 ≤ cfg.microStopAfter)
    (hend : windowEnd < w.last) :
    Labelled cfg points (Core.trailing cfg windowEnd w) ∧
      Separated (Core.trailing cfg windowEnd w) := by
  unfold Core.trailing
  rw [if_pos (by omega)]
  constructor
  · exact h.labelled.pushRunning fun a b hgap _ hb => h.short a b hgap hb
  · exact h.separated.pushRunning h.stopped

end Walk

section Classification

variable {cfg : StateConfig} {windowStart windowEnd : Int} {pulses : List Int}

theorem foldl_debounceStep_ne_nil {minGap : Int} {kept : List Int} (h : kept ≠ [])
    (pulses : List Int) : pulses.foldl (debounceStep minGap) kept ≠ [] := by
  induction pulses generalizing kept with
  | nil => exact h
  | cons p rest ih =>
      apply ih
      unfold debounceStep
      split
      · split
        · exact h
        · split
          · exact h
          · simp
      · simp

/-- The first pulse is kept. -/
theorem debounce_ne_nil {minGap : Int} (h : pulses ≠ []) : debounce pulses minGap ≠ [] := by
  cases pulses with
  | nil => exact absurd rfl h
  | cons p rest => exact foldl_debounceStep_ne_nil (by simp [debounceStep]) rest

/-- The walk over a stream with a pulse. -/
theorem computeStates_labelled (hcfg : 0 ≤ cfg.microStopAfter) (hwin : windowStart < windowEnd)
    (hpulses : pulses ≠ []) :
    Labelled cfg (reachPoints cfg pulses windowStart windowEnd)
        (computeStates cfg pulses windowStart windowEnd) ∧
      Separated (computeStates cfg pulses windowStart windowEnd) := by
  have hsorted := debounce_sorted pulses cfg.debounce
  have hne : debounce pulses cfg.debounce ≠ [] := debounce_ne_nil hpulses
  unfold reachPoints computeStates
  rw [if_neg (not_le.mpr hwin)]
  cases hdebounced : debounce pulses cfg.debounce with
  | nil => exact absurd hdebounced hne
  | cons first rest =>
      rw [hdebounced] at hsorted
      obtain ⟨hfirst, -⟩ := List.pairwise_cons.mp hsorted
      -- the walk from the window's start, or from a first pulse before it
      obtain ⟨points, hpoints, hfollows⟩ : ∃ points,
          points = (if ∃ p ∈ first :: rest, p < windowStart then [] else [windowStart]) ++
            first :: rest ∧
          (rest.foldl (walkStep cfg) (leading cfg first windowStart)).Follows cfg points := by
        refine ⟨_, rfl, ?_⟩
        split
        · rename_i hbefore
          obtain ⟨p, hp, hlt⟩ := hbefore
          have hle : first ≤ p := by
            rcases List.mem_cons.mp hp with rfl | hp
            · exact le_rfl
            · exact hfirst p hp
          have hleading : leading cfg first windowStart = ⟨[], windowStart, first⟩ :=
            if_pos (by omega)
          rw [hleading]
          exact (Walk.Follows.start cfg (hle.trans hlt.le)).foldl hcfg hsorted
        · rename_i hbefore
          have hstart : ((windowStart : Int) :: first :: rest).Pairwise (· ≤ ·) :=
            List.pairwise_cons.mpr ⟨fun q hq => not_lt.mp fun h => hbefore ⟨q, hq, h⟩, hsorted⟩
          have hfollows := (Walk.Follows.start cfg (le_refl windowStart)).foldl hcfg hstart
          rw [List.foldl_cons, ← leading_eq_walkStep] at hfollows
          exact hfollows
      rw [← hpoints]
      dsimp only
      split
      · rename_i hbeyond
        obtain ⟨p, hp, hlt⟩ := hbeyond
        rw [List.append_nil]
        apply hfollows.trailing_of_lt hcfg
        exact hlt.trans_le (hfollows.le_last p (hpoints ▸ List.mem_append_right _ hp))
      · rename_i hbeyond
        apply hfollows.trailing hcfg
        -- the last point of the walk is a kept pulse or the window's start
        rcases List.mem_append.mp (hpoints ▸ hfollows.last_mem) with hlast | hlast
        · split at hlast
          · exact absurd hlast List.not_mem_nil
          · rw [List.mem_singleton.mp hlast]
            exact hwin.le
        · exact not_lt.mp fun h => hbeyond ⟨_, hlast, h⟩

/-- Pulses in the window are points between its ends. -/
theorem reachPoints_eq (hp : ∀ p ∈ pulses, windowStart ≤ p ∧ p ≤ windowEnd) :
    reachPoints cfg pulses windowStart windowEnd = gapPoints cfg pulses windowStart windowEnd := by
  have hkept : ∀ p ∈ debounce pulses cfg.debounce, windowStart ≤ p ∧ p ≤ windowEnd :=
    fun p hmem => hp p ((debounce_sublist pulses cfg.debounce).subset hmem)
  have hbefore : ¬ ∃ p ∈ debounce pulses cfg.debounce, p < windowStart := by
    rintro ⟨p, hmem, hlt⟩
    exact absurd (hkept p hmem).1 (not_le.mpr hlt)
  have hbeyond : ¬ ∃ p ∈ debounce pulses cfg.debounce, windowEnd < p := by
    rintro ⟨p, hmem, hlt⟩
    exact absurd (hkept p hmem).2 (not_le.mpr hlt)
  rw [reachPoints, if_neg hbefore, if_neg hbeyond]
  rfl

/-- The interval that contains an instant has the state of the gap around it. -/
theorem Labelled.stateOf_eq {points : List Int} {out : List StateInterval}
    (h : Labelled cfg points out) (htiled : Timeline windowStart windowEnd out) {t a b : Int}
    (ht : t ∈ (⟨windowStart, windowEnd⟩ : Span Int)) (hab : Surrounds points t a b) :
    stateOf out t = some (gapState cfg (b - a)) := by
  obtain ⟨iv, hiv, htiv⟩ := htiled.exists_mem ht.1 ht.2
  rw [htiled.stateOf_eq hiv htiv, Option.some.injEq]
  by_cases hrun : iv.state = .running
  · have hmem := hab.mem
    have hshort := h.runs iv hiv hrun a b hab.gap (hmem.1.trans_lt htiv.2)
      (htiv.1.trans_lt hmem.2)
    rw [hrun, gapState, if_pos hshort]
  · obtain ⟨hgap, hstate⟩ := h.stops iv hiv hrun
    obtain ⟨rfl, rfl⟩ := (hgap.surrounds htiv).unique hab
    exact hstate

/-- The engine is the gap classification of the debounced stream. -/
theorem computeStates_classifies (cfg : StateConfig) (hcfg : 0 ≤ cfg.microStopAfter)
    {windowStart windowEnd : Int} (hwin : windowStart < windowEnd) {pulses : List Int}
    (hp : ∀ p ∈ pulses, windowStart ≤ p ∧ p ≤ windowEnd) :
    let out := computeStates cfg pulses windowStart windowEnd
    let points := gapPoints cfg pulses windowStart windowEnd
    Timeline windowStart windowEnd out ∧ Separated out ∧
      (pulses ≠ [] →
        (∀ t ∈ (⟨windowStart, windowEnd⟩ : Span Int), ∃ a b, Surrounds points t a b ∧
          stateOf out t = some (gapState cfg (b - a))) ∧
        ∀ iv ∈ out, iv.state ≠ .running → Gap points iv.start iv.finish) ∧
      (pulses = [] →
        out = [⟨classifyStop cfg (windowEnd - windowStart), windowStart, windowEnd⟩]) := by
  intro out points
  have htiled : Timeline windowStart windowEnd out := computeStates_timeline hcfg hwin hp
  have hempty : pulses = [] →
      out = [⟨classifyStop cfg (windowEnd - windowStart), windowStart, windowEnd⟩] := by
    rintro rfl
    exact if_neg (not_le.mpr hwin)
  refine ⟨htiled, ?_, ?_, hempty⟩
  · by_cases hpulses : pulses = []
    · rw [hempty hpulses]
      exact List.isChain_singleton _
    · exact (computeStates_labelled hcfg hwin hpulses).2
  · intro hpulses
    have hlabelled := (computeStates_labelled hcfg hwin hpulses).1
    rw [reachPoints_eq hp] at hlabelled
    refine ⟨?_, ?_⟩
    · intro t ht
      obtain ⟨a, b, hab⟩ : ∃ a b, Surrounds points t a b :=
        exists_surrounds List.mem_cons_self (by simp [points, gapPoints]) ht
      exact ⟨a, b, hab, hlabelled.stateOf_eq htiled ht hab⟩
    · intro iv hiv hstop
      exact (hlabelled.stops iv hiv hstop).1

/-- Three pulses in an hour: the machine runs, stops for 200 s and is then down. -/
theorem computeStates_classifies_shortHour :
    computeStates .default [10000000000, 60000000000, 260000000000] 0 3600000000000 =
        [⟨.running, 0, 60000000000⟩, ⟨.microStop, 60000000000, 260000000000⟩,
          ⟨.down, 260000000000, 3600000000000⟩] ∧
      Separated
        (computeStates .default [10000000000, 60000000000, 260000000000] 0 3600000000000) :=
  ⟨by decide, (computeStates_classifies .default (by decide) (by decide) (by decide)).2.1⟩

end Classification

end ElectronixMes.Core
