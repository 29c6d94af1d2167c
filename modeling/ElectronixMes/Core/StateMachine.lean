import ElectronixMes.Timeline.Span
import Mathlib.Data.List.Sort

/-!
# The machine state engine

Cycle pulses over a window become a list of state intervals: pulses are
debounced, gaps between the kept ones are classified by their length, and
planned stops are overlaid. A timeline can be split at boundaries such as shift
changes. Loops over a growing vector are folds over the vector built so far.

## Implementation notes

Instants and durations are nanoseconds. The field `end` of the source is
`finish` here.
-/

namespace ElectronixMes.Core

open Timeline

/-- Discrete machine state over an interval. -/
inductive MachineState where
  | running
  | microStop
  | down
  | plannedStop
  deriving DecidableEq, Repr

def MachineState.isStop (s : MachineState) : Bool := s ≠ .running

/-- Thresholds governing state transitions. -/
structure StateConfig where
  microStopAfter : Int
  downAfter : Int
  debounce : Int

/-- 60 s, 300 s and 2 s. -/
def StateConfig.default : StateConfig where
  microStopAfter := 60000000000
  downAfter := 300000000000
  debounce := 2000000000

structure StateInterval where
  state : MachineState
  start : Int
  finish : Int
  deriving DecidableEq, Repr

def StateInterval.span (iv : StateInterval) : Span Int := ⟨iv.start, iv.finish⟩

structure PlannedInterval where
  start : Int
  finish : Int
  deriving DecidableEq, Repr

structure DowntimeEvent where
  id : String
  state : MachineState
  start : Int
  finish : Int
  deriving DecidableEq, Repr

/-- Classify a stop's duration into MicroStop vs Down. -/
def classifyStop (cfg : StateConfig) (span : Int) : MachineState :=
  if span ≤ cfg.downAfter then .microStop else .down

/-- Push a Running interval, skipping zero and negative lengths. -/
def pushRunning (out : List StateInterval) (start finish : Int) : List StateInterval :=
  if start < finish then out ++ [⟨.running, start, finish⟩] else out

def debounceStep (minGap : Int) (kept : List Int) (p : Int) : List Int :=
  match kept.getLast? with
  | some last =>
      if p - last < minGap then kept
      else if p < last then kept
      else kept ++ [p]
  | none => kept ++ [p]

/-- Drop pulses within `minGap` of the previously kept one, and pulses that
come out of order. -/
def debounce (pulses : List Int) (minGap : Int) : List Int :=
  pulses.foldl (debounceStep minGap) []

/-- The variables of the walk over the kept pulses. -/
structure Walk where
  out : List StateInterval
  runStart : Int
  last : Int

def walkStep (cfg : StateConfig) (w : Walk) (p : Int) : Walk :=
  let gap := p - w.last
  if gap ≤ cfg.microStopAfter then { w with last := p }
  else
    { out := pushRunning w.out w.runStart w.last ++ [⟨classifyStop cfg gap, w.last, p⟩]
      runStart := p
      last := p }

/-- The span before the first pulse. -/
def leading (cfg : StateConfig) (first windowStart : Int) : Walk :=
  if first - windowStart ≤ cfg.microStopAfter then
    { out := [], runStart := windowStart, last := first }
  else
    { out := [⟨classifyStop cfg (first - windowStart), windowStart, first⟩]
      runStart := first
      last := first }

/-- The span after the last pulse. -/
def trailing (cfg : StateConfig) (windowEnd : Int) (w : Walk) : List StateInterval :=
  if windowEnd - w.last ≤ cfg.microStopAfter then
    pushRunning w.out w.runStart windowEnd
  else
    pushRunning w.out w.runStart w.last ++
      [⟨classifyStop cfg (windowEnd - w.last), w.last, windowEnd⟩]

/-- The raw state timeline of a pulse stream over a window. -/
def computeStates (cfg : StateConfig) (pulses : List Int)
    (windowStart windowEnd : Int) : List StateInterval :=
  if windowEnd ≤ windowStart then []
  else
    match debounce pulses cfg.debounce with
    | [] => [⟨classifyStop cfg (windowEnd - windowStart), windowStart, windowEnd⟩]
    | first :: rest =>
        trailing cfg windowEnd (rest.foldl (walkStep cfg) (leading cfg first windowStart))

/-- The planned overlaps clipped to an interval, sorted by start. -/
def cuts (planned : List PlannedInterval) (iv : StateInterval) : List (Int × Int) :=
  (planned.filterMap fun p =>
    let s := max p.start iv.start
    let e := min p.finish iv.finish
    if s < e then some (s, e) else none).insertionSort fun a b => a.1 ≤ b.1

/-- One cut of an interval: `(out, cursor)` before and after. A cut that touches
the planned stop pushed last extends it. -/
def cutStep (iv : StateInterval) (acc : List StateInterval × Int)
    (cut : Int × Int) : List StateInterval × Int :=
  let cursor := acc.2
  let out := if cursor < cut.1 then acc.1 ++ [⟨iv.state, cursor, cut.1⟩] else acc.1
  match out.getLast? with
  | some last =>
      if last.state = .plannedStop ∧ max cut.1 cursor ≤ last.finish then
        (out.dropLast ++ [{ last with finish := max last.finish cut.2 }],
          max last.finish cut.2)
      else (out ++ [⟨.plannedStop, max cursor cut.1, cut.2⟩], cut.2)
  | none => (out ++ [⟨.plannedStop, max cursor cut.1, cut.2⟩], cut.2)

def overlay (planned : List PlannedInterval) (out : List StateInterval)
    (iv : StateInterval) : List StateInterval :=
  let acc := (cuts planned iv).foldl (cutStep iv) (out, iv.start)
  if acc.2 < iv.finish then acc.1 ++ [⟨iv.state, acc.2, iv.finish⟩] else acc.1

/-- Overlay planned stops onto a computed timeline. -/
def applyPlannedStops (intervals : List StateInterval) (planned : List PlannedInterval) :
    List StateInterval :=
  intervals.foldl (overlay planned) []

/-- The boundaries strictly inside an interval, sorted. -/
def innerBoundaries (boundaries : List Int) (iv : StateInterval) : List Int :=
  (boundaries.filter fun b => iv.start < b ∧ b < iv.finish).insertionSort (· ≤ ·)

/-- One boundary of an interval: `(out, cursor)` before and after. -/
def splitStep (iv : StateInterval) (acc : List StateInterval × Int) (boundary : Int) :
    List StateInterval × Int :=
  (acc.1 ++ [⟨iv.state, acc.2, boundary⟩], boundary)

def splitInterval (boundaries : List Int) (out : List StateInterval) (iv : StateInterval) :
    List StateInterval :=
  let acc := (innerBoundaries boundaries iv).foldl (splitStep iv) (out, iv.start)
  acc.1 ++ [⟨iv.state, acc.2, iv.finish⟩]

/-- Split intervals at the boundaries, so that none straddles one. -/
def splitAtBoundaries (intervals : List StateInterval) (boundaries : List Int) :
    List StateInterval :=
  intervals.foldl (splitInterval boundaries) []

/-- The stops for which a downtime event is derived. -/
def isDowntime (iv : StateInterval) : Bool :=
  iv.state.isStop && iv.state ≠ .plannedStop

/-- One unclassified downtime event for every unplanned stop; `ids` are the
fresh ids in the order they are drawn. -/
def downtimeEvents (ids : ℕ → String) (intervals : List StateInterval) : List DowntimeEvent :=
  (intervals.filter isDowntime).mapIdx fun i iv => ⟨ids i, iv.state, iv.start, iv.finish⟩

section Debounce

theorem debounceStep_sublist (minGap : Int) (kept : List Int) (p : Int) :
    (debounceStep minGap kept p).Sublist (kept ++ [p]) := by
  unfold debounceStep
  split
  · split
    · exact List.sublist_append_left kept [p]
    · split
      · exact List.sublist_append_left kept [p]
      · exact List.Sublist.refl _
  · exact List.Sublist.refl _

theorem foldl_debounceStep_sublist (minGap : Int) (pulses kept : List Int) :
    (pulses.foldl (debounceStep minGap) kept).Sublist (kept ++ pulses) := by
  induction pulses generalizing kept with
  | nil => simp
  | cons p rest ih =>
      have hstep := (debounceStep_sublist minGap kept p).append_right rest
      have happ : kept ++ [p] ++ rest = kept ++ p :: rest := by simp
      exact (ih _).trans (happ ▸ hstep)

/-- The kept pulses are pulses, in their order. -/
theorem debounce_sublist (pulses : List Int) (minGap : Int) :
    (debounce pulses minGap).Sublist pulses := by
  simpa [debounce] using foldl_debounceStep_sublist minGap pulses []

theorem debounceStep_sorted {minGap : Int} {kept : List Int} (p : Int)
    (h : kept.Pairwise (· ≤ ·)) : (debounceStep minGap kept p).Pairwise (· ≤ ·) := by
  unfold debounceStep
  split
  · rename_i last hlast
    split
    · exact h
    · split
      · exact h
      · rename_i hp
        obtain ⟨init, rfl⟩ := List.getLast?_eq_some_iff.mp hlast
        have hinit := List.pairwise_append.mp h
        rw [List.pairwise_append]
        refine ⟨h, List.pairwise_singleton _ _, ?_⟩
        intro a ha b hb
        rw [List.mem_singleton] at hb
        subst hb
        rcases List.mem_append.mp ha with ha | ha
        · exact (hinit.2.2 a ha last (by simp)).trans (not_lt.mp hp)
        · rw [List.mem_singleton] at ha
          subst ha
          exact not_lt.mp hp
  · rename_i hnone
    rw [List.getLast?_eq_none_iff] at hnone
    subst hnone
    simp

/-- The kept pulses never go back in time, whatever the order of the input. -/
theorem debounce_sorted (pulses : List Int) (minGap : Int) :
    (debounce pulses minGap).Pairwise (· ≤ ·) :=
  List.foldlRecOn pulses (debounceStep minGap) List.Pairwise.nil
    fun _ h p _ => debounceStep_sorted p h

/-- A pulse at the instant of the pulse before it changes nothing: either that
one was kept, or it was already too close to the last kept one. -/
theorem debounceStep_twice {minGap : Int} (hgap : 0 < minGap) (kept : List Int) (p : Int) :
    debounceStep minGap (debounceStep minGap kept p) p = debounceStep minGap kept p := by
  have hkept : debounceStep minGap (kept ++ [p]) p = kept ++ [p] := by
    simp [debounceStep, hgap]
  cases hlast : kept.getLast? with
  | none =>
      have hfirst : debounceStep minGap kept p = kept ++ [p] := by
        simp [debounceStep, hlast]
      rw [hfirst, hkept]
  | some last =>
      by_cases hdrop : p - last < minGap ∨ p < last
      · have hfirst : debounceStep minGap kept p = kept := by
          simp only [debounceStep, hlast]
          rcases hdrop with hclose | hback
          · rw [if_pos hclose]
          · rw [if_pos hback, ite_self]
        rw [hfirst, hfirst]
      · rw [not_or] at hdrop
        have hfirst : debounceStep minGap kept p = kept ++ [p] := by
          simp only [debounceStep, hlast, if_neg hdrop.1, if_neg hdrop.2]
        rw [hfirst, hkept]

/-- In an ascending stream repeated instants can be removed up front. -/
theorem foldl_debounceStep_dedup {minGap : Int} (hgap : 0 < minGap) {pulses : List Int}
    (hsorted : pulses.Pairwise (· ≤ ·)) (kept : List Int) :
    pulses.dedup.foldl (debounceStep minGap) kept =
      pulses.foldl (debounceStep minGap) kept := by
  induction pulses generalizing kept with
  | nil => rfl
  | cons p rest ih =>
      obtain ⟨hle, hrest⟩ := List.pairwise_cons.mp hsorted
      by_cases hp : p ∈ rest
      · -- in an ascending stream the repetition stands right behind `p`
        obtain ⟨tail, rfl⟩ : ∃ tail, rest = p :: tail := by
          cases rest with
          | nil => cases hp
          | cons q tail =>
              have hpq : p ≤ q := hle q List.mem_cons_self
              have hqp : q ≤ p := by
                rcases List.mem_cons.mp hp with rfl | hp
                · exact le_rfl
                · exact (List.pairwise_cons.mp hrest).1 p hp
              exact ⟨tail, by rw [le_antisymm hpq hqp]⟩
        rw [List.dedup_cons_of_mem hp, ih hrest kept]
        simp only [List.foldl_cons]
        rw [debounceStep_twice hgap]
      · rw [List.dedup_cons_of_notMem hp, List.foldl_cons, List.foldl_cons, ih hrest]

/-- What is kept of two ascending streams depends only on the set of instants. -/
theorem debounce_eq_of_mem_iff {minGap : Int} (hgap : 0 < minGap) {pulses pulses' : List Int}
    (hsorted : pulses.Pairwise (· ≤ ·)) (hsorted' : pulses'.Pairwise (· ≤ ·))
    (hmem : ∀ p, p ∈ pulses ↔ p ∈ pulses') :
    debounce pulses minGap = debounce pulses' minGap := by
  have hperm : pulses.dedup.Perm pulses'.dedup := by
    apply (List.perm_ext_iff_of_nodup (List.nodup_dedup _) (List.nodup_dedup _)).mpr
    intro p
    rw [List.mem_dedup, List.mem_dedup]
    exact hmem p
  have hdedup : pulses.dedup = pulses'.dedup := by
    apply hperm.eq_of_pairwise' (r := (· ≤ ·))
    · exact hsorted.sublist (List.dedup_sublist _)
    · exact hsorted'.sublist (List.dedup_sublist _)
  calc
    debounce pulses minGap = pulses.dedup.foldl (debounceStep minGap) [] :=
      (foldl_debounceStep_dedup hgap hsorted []).symm
    _ = pulses'.dedup.foldl (debounceStep minGap) [] := by rw [hdedup]
    _ = debounce pulses' minGap := foldl_debounceStep_dedup hgap hsorted' []

end Debounce

section Tiling

variable {a b c : Int} {out : List StateInterval}

/-- The intervals run from `a` to `b` without a gap, an overlap or an empty one. -/
abbrev Timeline (a b : Int) (l : List StateInterval) : Prop :=
  Tiles StateInterval.span a b l

theorem timeline_singleton {s : MachineState} (h : a < b) : Timeline a b [⟨s, a, b⟩] :=
  tiles_singleton.mpr ⟨rfl, rfl, h⟩

theorem Timeline.push (hout : Timeline a b out) (s : MachineState) (h : b < c) :
    Timeline a c (out ++ [⟨s, b, c⟩]) :=
  hout.append (timeline_singleton h)

theorem Timeline.pushRunning (hout : Timeline a b out) (h : b ≤ c) :
    Timeline a c (pushRunning out b c) := by
  unfold Core.pushRunning
  split
  · rename_i hlt
    exact hout.push .running hlt
  · rename_i hnot
    have heq : b = c := le_antisymm h (not_lt.mp hnot)
    exact heq ▸ hout

/-- The walk stands at the start of the window, or has tiled up to `runStart`, from the start of
the window or from a pulse before it. -/
structure Walk.Ok (pulses : List Int) (windowStart : Int) (w : Walk) : Prop where
  tiled : w.out = [] ∧ w.runStart = windowStart ∨
    w.runStart ∈ pulses ∧ w.runStart ≤ w.last ∧
      ∃ a ≤ windowStart, (a = windowStart ∨ a ∈ pulses) ∧ Timeline a w.runStart w.out
  last_mem : w.last ∈ pulses

variable {cfg : StateConfig} {windowStart windowEnd : Int} {pulses : List Int}

theorem leading_ok (hcfg : 0 ≤ cfg.microStopAfter) {first : Int} (hfirst : first ∈ pulses) :
    (leading cfg first windowStart).Ok pulses windowStart := by
  unfold leading
  split
  · exact ⟨Or.inl ⟨rfl, rfl⟩, hfirst⟩
  · rename_i hgap
    have hlt : windowStart < first := by omega
    exact ⟨Or.inr ⟨hfirst, le_rfl, windowStart, le_rfl, Or.inl rfl, timeline_singleton hlt⟩, hfirst⟩

/-- What is tiled up to the last pulse is tiled up to any later instant. -/
theorem Walk.Ok.stop {w : Walk} (hw : w.Ok pulses windowStart) (s : MachineState) {p : Int}
    (hlt : w.last < p) : ∃ a ≤ windowStart, (a = windowStart ∨ a ∈ pulses) ∧
      Timeline a p (Core.pushRunning w.out w.runStart w.last ++ [⟨s, w.last, p⟩]) := by
  rcases hw.tiled with ⟨hout, hstart⟩ | ⟨-, hle, a, ha, hfrom, htiled⟩
  · rw [hout, hstart]
    rcases le_or_gt windowStart w.last with hin | hbefore
    · refine ⟨windowStart, le_rfl, Or.inl rfl, ?_⟩
      exact ((show Timeline windowStart windowStart [] from rfl).pushRunning hin).push s hlt
    · refine ⟨w.last, hbefore.le, Or.inr hw.last_mem, ?_⟩
      rw [Core.pushRunning, if_neg (not_lt.mpr hbefore.le)]
      exact timeline_singleton hlt
  · exact ⟨a, ha, hfrom, (htiled.pushRunning hle).push s hlt⟩

theorem walkStep_ok (hcfg : 0 ≤ cfg.microStopAfter) {w : Walk} {p : Int}
    (hw : w.Ok pulses windowStart) (hlast : w.last ≤ p) (hp : p ∈ pulses) :
    (walkStep cfg w p).Ok pulses windowStart := by
  unfold walkStep
  dsimp only
  split
  · refine ⟨hw.tiled.imp_right ?_, hp⟩
    rintro ⟨hmem, hle, htiled⟩
    exact ⟨hmem, hle.trans hlast, htiled⟩
  · rename_i hgap
    have hlt : w.last < p := by omega
    exact ⟨Or.inr ⟨hp, le_rfl, hw.stop _ hlt⟩, hp⟩

@[simp] theorem walkStep_last (w : Walk) (p : Int) : (walkStep cfg w p).last = p := by
  unfold walkStep
  dsimp only
  split <;> rfl

/-- The walk over pulses that never go back in time keeps tiling. -/
theorem walk_ok (hcfg : 0 ≤ cfg.microStopAfter) {rest : List Int} {w : Walk}
    (hw : w.Ok pulses windowStart) (hsorted : (w.last :: rest).Pairwise (· ≤ ·))
    (hp : ∀ p ∈ rest, p ∈ pulses) : (rest.foldl (walkStep cfg) w).Ok pulses windowStart := by
  induction rest generalizing w with
  | nil => exact hw
  | cons p rest ih =>
      obtain ⟨hle, hrest⟩ := List.pairwise_cons.mp hsorted
      apply ih
      · exact walkStep_ok hcfg hw (hle p List.mem_cons_self) (hp p List.mem_cons_self)
      · rw [walkStep_last]
        exact hrest
      · intro q hq
        exact hp q (List.mem_cons_of_mem _ hq)

theorem trailing_timeline (hcfg : 0 ≤ cfg.microStopAfter) (hwin : windowStart < windowEnd)
    {w : Walk} (hw : w.Ok pulses windowStart) :
    ∃ a ≤ windowStart, (a = windowStart ∨ a ∈ pulses) ∧
      ∃ b, windowEnd ≤ b ∧ (b = windowEnd ∨ b ∈ pulses) ∧
        Timeline a b (trailing cfg windowEnd w) := by
  unfold trailing
  split
  · rcases hw.tiled with ⟨hout, hstart⟩ | ⟨hmem, -, a, ha, hfrom, htiled⟩
    · refine ⟨windowStart, le_rfl, Or.inl rfl, windowEnd, le_rfl, Or.inl rfl, ?_⟩
      rw [hout, hstart]
      exact (show Timeline windowStart windowStart [] from rfl).pushRunning hwin.le
    · rcases le_or_gt w.runStart windowEnd with hin | hbeyond
      · exact ⟨a, ha, hfrom, windowEnd, le_rfl, Or.inl rfl, htiled.pushRunning hin⟩
      · refine ⟨a, ha, hfrom, w.runStart, hbeyond.le, Or.inr hmem, ?_⟩
        rw [Core.pushRunning, if_neg (not_lt.mpr hbeyond.le)]
        exact htiled
  · rename_i hgap
    obtain ⟨a, ha, hfrom, htiled⟩ := hw.stop (classifyStop cfg (windowEnd - w.last))
      (show w.last < windowEnd by omega)
    exact ⟨a, ha, hfrom, windowEnd, le_rfl, Or.inl rfl, htiled⟩

/-- Over a non-empty window the computed states tile it, and reach beyond it to a kept pulse at
most. -/
theorem computeStates_reach (hcfg : 0 ≤ cfg.microStopAfter) (hwin : windowStart < windowEnd)
    (pulses : List Int) :
    ∃ a ≤ windowStart, (a = windowStart ∨ a ∈ debounce pulses cfg.debounce) ∧
      ∃ b, windowEnd ≤ b ∧ (b = windowEnd ∨ b ∈ debounce pulses cfg.debounce) ∧
        Timeline a b (computeStates cfg pulses windowStart windowEnd) := by
  unfold computeStates
  rw [if_neg (not_le.mpr hwin)]
  have hsorted := debounce_sorted pulses cfg.debounce
  cases hkept : debounce pulses cfg.debounce with
  | nil =>
      exact ⟨windowStart, le_rfl, Or.inl rfl, windowEnd, le_rfl, Or.inl rfl,
        timeline_singleton hwin⟩
  | cons first rest =>
      rw [hkept] at hsorted
      apply trailing_timeline hcfg hwin
      apply walk_ok hcfg (leading_ok hcfg List.mem_cons_self)
      · have hlast : (leading cfg first windowStart).last = first := by
          unfold leading
          split <;> rfl
        rw [hlast]
        exact hsorted
      · intro p hrest
        exact List.mem_cons_of_mem _ hrest

/-- Over a non-empty window that contains its pulses the computed states tile it. -/
theorem computeStates_timeline (hcfg : 0 ≤ cfg.microStopAfter) {pulses : List Int}
    (hwin : windowStart < windowEnd)
    (hp : ∀ p ∈ pulses, windowStart ≤ p ∧ p ≤ windowEnd) :
    Timeline windowStart windowEnd (computeStates cfg pulses windowStart windowEnd) := by
  obtain ⟨a, ha, hfrom, b, hb, hto, htiled⟩ := computeStates_reach hcfg hwin pulses
  have hkept := (debounce_sublist pulses cfg.debounce).subset
  have hstart : a = windowStart := le_antisymm ha (hfrom.elim Eq.ge fun h => (hp a (hkept h)).1)
  have hend : b = windowEnd := le_antisymm (hto.elim Eq.le fun h => (hp b (hkept h)).2) hb
  rw [hstart, hend] at htiled
  exact htiled

theorem computeStates_of_le {pulses : List Int} (h : windowEnd ≤ windowStart) :
    computeStates cfg pulses windowStart windowEnd = [] := by
  rw [computeStates, if_pos h]

/-- What the cuts made so far leave: a tiling up to the cursor, which stands at
the interval's start until the first cut and behind a planned stop after it. -/
structure CutOk (a : Int) (iv : StateInterval)
    (acc : List StateInterval × Int) : Prop where
  tiled : Timeline a acc.2 acc.1
  start_le : iv.start ≤ acc.2
  le_finish : acc.2 ≤ iv.finish
  last : acc.2 = iv.start ∨ ∃ l, acc.1.getLast? = some l ∧ l.state = .plannedStop

theorem mem_cuts {planned : List PlannedInterval} {iv : StateInterval} {cut : Int × Int}
    (h : cut ∈ cuts planned iv) : iv.start ≤ cut.1 ∧ cut.1 < cut.2 ∧ cut.2 ≤ iv.finish := by
  unfold cuts at h
  rw [List.mem_insertionSort] at h
  obtain ⟨p, -, hp⟩ := List.mem_filterMap.mp h
  dsimp only at hp
  split at hp
  · rename_i hlt
    cases hp
    exact ⟨le_max_right _ _, hlt, min_le_right _ _⟩
  · cases hp

/-- The tile pushed last ends where the tiling ends. -/
theorem Timeline.of_getLast? {l : StateInterval} (h : Timeline a b out)
    (hlast : out.getLast? = some l) :
    l.finish = b ∧ l.start < b ∧ Timeline a l.start out.dropLast := by
  obtain ⟨init, rfl⟩ := List.getLast?_eq_some_iff.mp hlast
  obtain ⟨m, hinit, hl⟩ := Tiles.of_append h
  obtain ⟨rfl, rfl, hlt⟩ := tiles_singleton.mp hl
  refine ⟨rfl, hlt, ?_⟩
  rw [List.dropLast_concat]
  exact hinit

theorem cutStep_ok {iv : StateInterval} {acc : List StateInterval × Int}
    {cut : Int × Int} (hacc : CutOk a iv acc)
    (hcut : iv.start ≤ cut.1 ∧ cut.1 < cut.2 ∧ cut.2 ≤ iv.finish) :
    CutOk a iv (cutStep iv acc cut) := by
  obtain ⟨out, cursor⟩ := acc
  obtain ⟨s, e⟩ := cut
  obtain ⟨htiled, hstart, hfin, hlast⟩ := hacc
  dsimp only at htiled hstart hfin hlast hcut
  -- `out'` tiles up to `max cursor s`, in front of which the planned stop goes
  obtain ⟨out', hout'⟩ : ∃ out', out' =
      (if cursor < s then out ++ [⟨iv.state, cursor, s⟩] else out) := ⟨_, rfl⟩
  have htiled' : Timeline a (max cursor s) out' := by
    rw [hout']
    split
    · rename_i hlt
      rw [max_eq_right hlt.le]
      exact htiled.push iv.state hlt
    · rename_i hle
      rw [max_eq_left (not_lt.mp hle)]
      exact htiled
  have hpush (hlt : max cursor s < e) :
      CutOk a iv (out' ++ [⟨.plannedStop, max cursor s, e⟩], e) := by
    refine ⟨htiled'.push .plannedStop hlt, by dsimp only; omega, hcut.2.2, Or.inr ?_⟩
    exact ⟨_, List.getLast?_concat, rfl⟩
  unfold cutStep
  dsimp only
  rw [← hout']
  cases hl : out'.getLast? with
  | none =>
      apply hpush
      rw [List.getLast?_eq_none_iff] at hl
      have hnil : out = [] := by
        rw [hl] at hout'
        split at hout'
        · simp at hout'
        · exact hout'.symm
      rcases hlast with hc | ⟨l, hl', -⟩
      · rw [hc, max_eq_right hcut.1]
        exact hcut.2.1
      · simp [hnil] at hl'
  | some l =>
      dsimp only
      split
      · rename_i hmerge
        obtain ⟨hfinish, hlt, hdrop⟩ := htiled'.of_getLast? hl
        refine ⟨?_, by dsimp only; omega, by dsimp only; omega, Or.inr ?_⟩
        · apply hdrop.append
          exact tiles_singleton.mpr ⟨rfl, rfl, by dsimp only; omega⟩
        · exact ⟨_, List.getLast?_concat, hmerge.1⟩
      · rename_i hmerge
        apply hpush
        by_cases hc : cursor < s
        · rw [max_eq_right hc.le]
          exact hcut.2.1
        · -- no piece was pushed, so an unmerged cut is the first of the interval
          rw [if_neg hc] at hout'
          rcases hlast with hstart' | ⟨l', hl', hstate⟩
          · rw [hstart', max_eq_right hcut.1]
            exact hcut.2.1
          · rw [← hout', hl, Option.some.injEq] at hl'
            obtain ⟨hfinish, -, -⟩ := htiled'.of_getLast? hl
            exact absurd ⟨hl' ▸ hstate, by rw [hfinish, max_comm]⟩ hmerge

/-- Overlaying the planned stops on the next interval extends the tiling to its end. -/
theorem overlay_timeline {planned : List PlannedInterval} {iv : StateInterval}
    (hout : Timeline a iv.start out) (hiv : iv.start < iv.finish) :
    Timeline a iv.finish (overlay planned out iv) := by
  have hok : CutOk a iv ((cuts planned iv).foldl (cutStep iv) (out, iv.start)) := by
    refine List.foldlRecOn (cuts planned iv) (cutStep iv) ?_ ?_
    · exact ⟨hout, le_rfl, hiv.le, Or.inl rfl⟩
    · intro acc hacc cut hcut
      exact cutStep_ok hacc (mem_cuts hcut)
  unfold overlay
  dsimp only
  split
  · rename_i hlt
    exact hok.tiled.push iv.state hlt
  · rename_i hge
    have heq := le_antisymm hok.le_finish (not_lt.mp hge)
    exact heq ▸ hok.tiled

/-- The overlay of planned stops tiles what the intervals tiled. -/
theorem applyPlannedStops_timeline {l : List StateInterval} (planned : List PlannedInterval)
    (h : Timeline a b l) : Timeline a b (applyPlannedStops l planned) := by
  have hgen : ∀ (m : Int) (out : List StateInterval), Timeline a m out → Timeline m b l →
      Timeline a b (l.foldl (overlay planned) out) := by
    clear h
    induction l with
    | nil =>
        intro m out hout hnil
        exact (show m = b from hnil) ▸ hout
    | cons iv rest ih =>
        rintro m out hout ⟨rfl, hlt, hrest⟩
        exact ih _ _ (overlay_timeline hout hlt) hrest
  exact hgen a [] rfl h

end Tiling

section Ends

variable {P : Int → Prop} {a b : Int} {out l : List StateInterval}

/-- Every interval starts and ends at instants of a kind. -/
def Ends (P : Int → Prop) (l : List StateInterval) : Prop := ∀ iv ∈ l, P iv.start ∧ P iv.finish

theorem ends_nil : Ends P [] := fun _ h => absurd h List.not_mem_nil

theorem Ends.push (hout : Ends P out) (s : MachineState) (ha : P a) (hb : P b) :
    Ends P (out ++ [⟨s, a, b⟩]) := by
  intro iv hiv
  rcases List.mem_append.mp hiv with hiv | hiv
  · exact hout iv hiv
  · rw [List.mem_singleton.mp hiv]
    exact ⟨ha, hb⟩

theorem max_of {x y : Int} (hx : P x) (hy : P y) : P (max x y) := by
  rcases max_choice x y with h | h <;> rw [h]
  · exact hx
  · exact hy

theorem min_of {x y : Int} (hx : P x) (hy : P y) : P (min x y) := by
  rcases min_choice x y with h | h <;> rw [h]
  · exact hx
  · exact hy

theorem cuts_ends {planned : List PlannedInterval}
    (hplanned : ∀ p ∈ planned, P p.start ∧ P p.finish)
    {iv : StateInterval} (hiv : P iv.start ∧ P iv.finish) {cut : Int × Int}
    (h : cut ∈ cuts planned iv) : P cut.1 ∧ P cut.2 := by
  unfold cuts at h
  rw [List.mem_insertionSort] at h
  obtain ⟨p, hp, hcut⟩ := List.mem_filterMap.mp h
  dsimp only at hcut
  split at hcut
  · cases hcut
    exact ⟨max_of (hplanned p hp).1 hiv.1, min_of (hplanned p hp).2 hiv.2⟩
  · cases hcut

theorem cutStep_ends {iv : StateInterval} {acc : List StateInterval × Int} {cut : Int × Int}
    (hacc : Ends P acc.1 ∧ P acc.2) (hcut : P cut.1 ∧ P cut.2) :
    Ends P (cutStep iv acc cut).1 ∧ P (cutStep iv acc cut).2 := by
  obtain ⟨out', hout'⟩ : ∃ out', out' =
      (if acc.2 < cut.1 then acc.1 ++ [⟨iv.state, acc.2, cut.1⟩] else acc.1) := ⟨_, rfl⟩
  have hends : Ends P out' := by
    rw [hout']
    split
    · exact hacc.1.push _ hacc.2 hcut.1
    · exact hacc.1
  have hpush : Ends P (out' ++ [⟨.plannedStop, max acc.2 cut.1, cut.2⟩]) :=
    hends.push _ (max_of hacc.2 hcut.1) hcut.2
  unfold cutStep
  dsimp only
  rw [← hout']
  split
  · rename_i last hlast
    split
    · have hmem := hends last (List.mem_of_getLast? hlast)
      have hmax := max_of hmem.2 hcut.2
      have hinit : Ends P out'.dropLast := fun x hx => hends x (List.mem_of_mem_dropLast hx)
      exact ⟨hinit.push last.state hmem.1 hmax, hmax⟩
    · exact ⟨hpush, hcut.2⟩
  · exact ⟨hpush, hcut.2⟩

/-- The overlay adds the ends of planned stops. -/
theorem applyPlannedStops_ends (h : Ends P l) {planned : List PlannedInterval}
    (hplanned : ∀ p ∈ planned, P p.start ∧ P p.finish) : Ends P (applyPlannedStops l planned) := by
  refine List.foldlRecOn l (overlay planned) ends_nil ?_
  intro out hout iv hiv
  obtain ⟨hacc, hcursor⟩ := List.foldlRecOn (motive := fun acc => Ends P acc.1 ∧ P acc.2)
    (cuts planned iv) (cutStep iv) (b := (out, iv.start)) ⟨hout, (h iv hiv).1⟩
    fun acc hacc cut hcut => cutStep_ends hacc (cuts_ends hplanned (h iv hiv) hcut)
  unfold overlay
  dsimp only
  split
  · exact hacc.push _ hcursor (h iv hiv).2
  · exact hacc

end Ends

end ElectronixMes.Core
