import ElectronixMes.Derived.OeeAgreement
import Mathlib.Algebra.BigOperators.Group.List.Basic

/-!
# OEE figures over adjacent windows

What a row adds to a window is the part of its interval inside it, or its pieces if its
instant is inside. Of two windows that meet, each instant lies in one, so the figures of
the windows add up to those of the whole span, and so do those of the shifts of a day.
-/

namespace ElectronixMes.Db

open Relational ElectronixMes.Core Timeline

/-- The figures that `oee_inputs` reads over a window. -/
@[ext] structure WindowFigures where
  runS : ℚ
  plannedS : ℚ
  totalCount : ℚ
  goodCount : ℚ

instance : Zero WindowFigures := ⟨⟨0, 0, 0, 0⟩⟩

instance : Add WindowFigures := ⟨fun f g =>
  ⟨f.runS + g.runS, f.plannedS + g.plannedS, f.totalCount + g.totalCount,
    f.goodCount + g.goodCount⟩⟩

/-- The figures behind the inputs over `[start, finish)`. -/
def windowFigures (db : Database) (wc : String) (start finish : Int) :
    Except RepoError WindowFigures :=
  (oeeInputs db wc start finish).map fun i =>
    { runS := i.runS
      plannedS := ((finish - start).tdiv 1000 : ℚ) / 1000 - i.plannedProductionS
      totalCount := i.totalCount
      goodCount := i.goodCount }

/-- The figures of the windows between successive cuts, added up. -/
def figuresOver (db : Database) (wc : String) : Int → List Int → Except RepoError WindowFigures
  | _, [] => .ok 0
  | start, cut :: rest => do
      let f ← windowFigures db wc start cut
      let g ← figuresOver db wc cut rest
      return f + g

/-- The instants of a span inside a window. -/
def lengthIn (s w : Span Int) : Int := if s.Overlaps w then (s.clamp w).length else 0

section Adjacent

variable {db : Database} {wc : String} {a b c : Int}

theorem lengthIn_eq {s w : Span Int} (hs : s.lo ≤ s.hi) (hw : w.lo ≤ w.hi) :
    lengthIn s w = max 0 (min s.hi w.hi - max s.lo w.lo) := by
  unfold lengthIn
  by_cases h : s.Overlaps w
  · obtain ⟨hlo, hhi⟩ := id h
    rw [if_pos h, Span.length, Span.clamp]
    dsimp only
    omega
  · rw [if_neg h]
    rcases Span.not_overlaps_iff.mp h with hapart | hapart <;> omega

theorem lengthIn_add {s : Span Int} (hs : s.lo ≤ s.hi) (hab : a ≤ b) (hbc : b ≤ c) :
    lengthIn s ⟨a, c⟩ = lengthIn s ⟨a, b⟩ + lengthIn s ⟨b, c⟩ := by
  rw [lengthIn_eq hs (hab.trans hbc), lengthIn_eq hs hab, lengthIn_eq hs hbc]
  dsimp only
  omega

theorem mem_window_add (hab : a ≤ b) (hbc : b ≤ c) (t : Int) (x : Int) :
    (if t ∈ (⟨a, c⟩ : Span Int) then x else 0) =
      (if t ∈ (⟨a, b⟩ : Span Int) then x else 0) + if t ∈ (⟨b, c⟩ : Span Int) then x else 0 := by
  simp only [Span.mem_def]
  split <;> split <;> split <;> omega

theorem clampedMicros_eq (window : Span Int) (state : String) :
    clampedMicros db wc window state =
      (db.machineStates.rows.map fun r =>
        if r.workCenterId = wc ∧ r.state = state then lengthIn r.span window else 0).sum := by
  have hite := List.sum_map_ite
    (fun r : MachineStateRow => r.workCenterId = wc ∧ r.span.Overlaps window ∧ r.state = state)
    (fun r => (r.span.clamp window).length) (fun _ => 0) db.machineStates.rows
  rw [clampedMicros, statesIn]
  rw [List.sum_map_zero, add_zero] at hite
  rw [← hite]
  congr 1
  apply List.map_congr_left
  intro r _
  unfold lengthIn
  split <;> split <;> try split
  all_goals first | rfl | tauto

theorem clampedMicros_add (hstates : ∀ r ∈ db.machineStates, r.startTs ≤ r.endTs)
    (hab : a ≤ b) (hbc : b ≤ c) (state : String) :
    clampedMicros db wc ⟨a, c⟩ state =
      clampedMicros db wc ⟨a, b⟩ state + clampedMicros db wc ⟨b, c⟩ state := by
  rw [clampedMicros_eq, clampedMicros_eq, clampedMicros_eq, ← List.sum_map_add]
  congr 1
  apply List.map_congr_left
  intro r hr
  by_cases hrow : r.workCenterId = wc ∧ r.state = state
  · rw [if_pos hrow, if_pos hrow, if_pos hrow]
    exact lengthIn_add (hstates r hr) hab hbc
  · rw [if_neg hrow, if_neg hrow, if_neg hrow, add_zero]

/-- A sum over the counts of a window adds up over adjacent windows. -/
theorem sum_countsIn_add (hab : a ≤ b) (hbc : b ≤ c) (f : ProductionCountRow → Int) :
    ((countsIn db wc ⟨a, c⟩).map f).sum =
      ((countsIn db wc ⟨a, b⟩).map f).sum + ((countsIn db wc ⟨b, c⟩).map f).sum := by
  have hsum (window : Span Int) :
      ((countsIn db wc window).map f).sum =
        (db.productionCounts.rows.map fun r =>
          if r.ts ∈ window then (if r.workCenterId = wc then f r else 0) else 0).sum := by
    have hite := List.sum_map_ite
      (fun r : ProductionCountRow => r.workCenterId = wc ∧ r.ts ∈ window) f (fun _ => 0)
      db.productionCounts.rows
    rw [List.sum_map_zero, add_zero] at hite
    rw [countsIn, ← hite]
    congr 1
    apply List.map_congr_left
    intro r _
    split <;> split <;> try split
    all_goals first | rfl | tauto
  rw [hsum, hsum, hsum, ← List.sum_map_add]
  congr 1
  apply List.map_congr_left
  intro r _
  exact mem_window_add hab hbc r.ts _

theorem countsOverflow_add (hab : a ≤ b) (hbc : b ≤ c) :
    CountsOverflow db wc ⟨a, c⟩ ↔
      CountsOverflow db wc ⟨a, b⟩ ∨ CountsOverflow db wc ⟨b, c⟩ := by
  have hmem (r : ProductionCountRow) :
      r ∈ countsIn db wc ⟨a, c⟩ ↔ r ∈ countsIn db wc ⟨a, b⟩ ∨ r ∈ countsIn db wc ⟨b, c⟩ := by
    simp only [countsIn, List.mem_filter, decide_eq_true_eq, Span.mem_def]
    have hts : a ≤ r.ts ∧ r.ts < c ↔ (a ≤ r.ts ∧ r.ts < b) ∨ b ≤ r.ts ∧ r.ts < c := by omega
    tauto
  unfold CountsOverflow
  simp only [hmem, or_and_right, exists_or]

end Adjacent

section Figures

variable {db : Database} {wc : String} {a b c : Int}

theorem windowFigures_of_overflow (h : CountsOverflow db wc ⟨a, b⟩) :
    windowFigures db wc a b = .error (mapSqlxPlain (.other "integer out of range")) := by
  unfold windowFigures oeeInputs
  dsimp only
  rw [totalCount_of_overflow h]
  rfl

/-- The figures are the sums over the rows. -/
theorem windowFigures_of_not_overflow (h : ¬ CountsOverflow db wc ⟨a, b⟩) :
    windowFigures db wc a b = .ok
      { runS := epoch (clampedMicros db wc ⟨a, b⟩ (stateStr .running))
        plannedS := epoch (clampedMicros db wc ⟨a, b⟩ (stateStr .plannedStop))
        totalCount := piecesIn db wc ⟨a, b⟩
        goodCount := goodCount db wc ⟨a, b⟩ } := by
  unfold windowFigures oeeInputs
  dsimp only
  rw [totalCount_of_not_overflow h, Except.map, sub_sub_cancel, clampedSeconds_eq,
    clampedSeconds_eq]

/-- The figures of two adjacent windows add up to those of both. -/
theorem windowFigures_add (hstates : ∀ r ∈ db.machineStates, r.startTs ≤ r.endTs)
    (hab : a ≤ b) (hbc : b ≤ c) :
    windowFigures db wc a c = do
      let f ← windowFigures db wc a b
      let g ← windowFigures db wc b c
      return f + g := by
  have hover : CountsOverflow db wc ⟨a, c⟩ ↔
      CountsOverflow db wc ⟨a, b⟩ ∨ CountsOverflow db wc ⟨b, c⟩ := countsOverflow_add hab hbc
  by_cases hleft : CountsOverflow db wc ⟨a, b⟩
  · rw [windowFigures_of_overflow (hover.mpr (Or.inl hleft)), windowFigures_of_overflow hleft]
    rfl
  · rw [windowFigures_of_not_overflow hleft]
    by_cases hright : CountsOverflow db wc ⟨b, c⟩
    · rw [windowFigures_of_overflow (hover.mpr (Or.inr hright)),
        windowFigures_of_overflow hright]
      rfl
    · have hnone : ¬ CountsOverflow db wc ⟨a, c⟩ := fun h => (hover.mp h).elim hleft hright
      rw [windowFigures_of_not_overflow hnone, windowFigures_of_not_overflow hright]
      refine congrArg Except.ok (WindowFigures.ext ?_ ?_ ?_ ?_)
      · exact (congrArg epoch (clampedMicros_add hstates hab hbc _)).trans (epoch_add _ _)
      · exact (congrArg epoch (clampedMicros_add hstates hab hbc _)).trans (epoch_add _ _)
      · exact (congrArg Int.cast (sum_countsIn_add hab hbc _)).trans (Int.cast_add _ _)
      · exact (congrArg Int.cast (sum_countsIn_add hab hbc _)).trans (Int.cast_add _ _)

/-- An empty window has no figures. -/
theorem windowFigures_self : windowFigures db wc a a = .ok 0 := by
  have hcounts : countsIn db wc ⟨a, a⟩ = [] := by
    rw [countsIn, List.filter_eq_nil_iff]
    intro r _
    simp [Span.mem_def]
  have hmicros (state : String) : clampedMicros db wc ⟨a, a⟩ state = 0 := by
    apply List.sum_eq_zero
    intro x hx
    obtain ⟨r, hr, rfl⟩ := List.mem_map.mp hx
    obtain ⟨-, -, hov, -⟩ := mem_statesIn.mp hr
    rw [Span.length, Span.clamp, max_eq_right hov.1.le, min_eq_right hov.2.le]
    exact sub_self a
  have hfits : ¬ CountsOverflow db wc ⟨a, a⟩ := by
    rintro ⟨r, hr, -⟩
    rw [hcounts] at hr
    exact List.not_mem_nil hr
  rw [windowFigures_of_not_overflow hfits, hmicros, hmicros, piecesIn, goodCount, hcounts]
  refine congrArg Except.ok (WindowFigures.ext ?_ ?_ ?_ ?_)
  · exact zero_div _
  · exact zero_div _
  · exact Int.cast_zero
  · exact Int.cast_zero

/-- What `oee_inputs` reads adds up: over two adjacent windows, and over any windows that run
from cut to cut through a span, such as the shifts of a day. -/
theorem oeeInputs_add_up (hstates : ∀ r ∈ db.machineStates, r.startTs ≤ r.endTs) :
    (∀ a b c, a ≤ b → b ≤ c →
      windowFigures db wc a c = do
        let f ← windowFigures db wc a b
        let g ← windowFigures db wc b c
        return f + g) ∧
      ∀ start cuts, (start :: cuts).IsChain (· ≤ ·) →
        figuresOver db wc start cuts = windowFigures db wc start (cuts.getLastD start) := by
  refine ⟨fun a b c => windowFigures_add hstates, ?_⟩
  intro start cuts hcuts
  induction cuts generalizing start with
  | nil => exact windowFigures_self.symm
  | cons cut rest ih =>
      obtain ⟨hle, hrest⟩ := List.isChain_cons_cons.mp hcuts
      have hend : cut ≤ rest.getLastD cut := by
        rcases List.mem_cons.mp List.getLastD_mem_cons with hlast | hlast
        · exact hlast.ge
        · exact (List.pairwise_cons.mp hrest.pairwise).1 _ hlast
      rw [figuresOver, ih cut hrest, List.getLastD_cons]
      exact (windowFigures_add hstates hle hend).symm

/-- A run from 0 s to 3 s seen through two windows that meet at 2 s. -/
theorem oeeInputs_add_up_run :
    let db : Database :=
      { machineStates := ⟨[⟨"run", "lathe", "running", 0, 3000000⟩], List.nodup_singleton _⟩ }
    windowFigures db "lathe" 0 5000000 = (do
      let f ← windowFigures db "lathe" 0 2000000
      let g ← windowFigures db "lathe" 2000000 5000000
      return f + g) := by
  intro db
  have hstates : ∀ r ∈ db.machineStates, r.startTs ≤ r.endTs := by decide
  exact (oeeInputs_add_up hstates).1 0 2000000 5000000 (by decide) (by decide)

end Figures

end ElectronixMes.Db
