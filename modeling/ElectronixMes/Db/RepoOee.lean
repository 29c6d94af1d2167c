import ElectronixMes.Db.RepoIngest
import Mathlib.Algebra.Order.Field.Basic
import Mathlib.Data.List.Sort
import Mathlib.Algebra.Order.Field.Rat
import Mathlib.Tactic.Linarith

/-!
# OEE, in SQL and over fetched inputs

The single-query OEE over a window, with `float8` read as exact rationals:
clamped running and planned-stop seconds, counts inside the window, and the
guards of its `CASE` expressions. The other path fetches the same sums and
hands them to the engine of `mes_core::oee`. A window is broken down by the shifts
that occur in it, day by day, in UTC. Windows are of whole microseconds here, as
they are bound.
-/

namespace ElectronixMes.Db

open Relational ElectronixMes.Core Timeline

structure OeeResult where
  availability : ℚ
  performance : ℚ
  quality : ℚ
  oee : ℚ

/-- `EXTRACT(EPOCH FROM d)` of a difference of timestamps. -/
def epoch (d : Int) : ℚ := (d : ℚ) / 1000000

/-- The rows `start_ts < finish AND end_ts > start` of a work center in a state. -/
def statesIn (db : Database) (workCenterId state : String) (window : Span Int) :
    List MachineStateRow :=
  db.machineStates.rows.filter fun r =>
    r.workCenterId = workCenterId ∧ r.span.Overlaps window ∧ r.state = state

/-- `SUM(EPOCH(LEAST(end_ts, finish) - GREATEST(start_ts, start)))` over them. -/
def clampedSeconds (db : Database) (workCenterId state : String) (window : Span Int) : ℚ :=
  ((statesIn db workCenterId state window).map fun r => epoch (r.span.clamp window).length).sum

/-- The counts `ts >= start AND ts < finish` of a work center. -/
def countsIn (db : Database) (workCenterId : String) (window : Span Int) :
    List ProductionCountRow :=
  db.productionCounts.rows.filter fun r => r.workCenterId = workCenterId ∧ r.ts ∈ window

/-- `good + scrap` of two `INTEGER` columns, refused when it leaves 32 bits. -/
def addInt4 (a b : Int32) : Except SqlError Int :=
  let s := a.toInt + b.toInt
  if Int32.minValue.toInt ≤ s ∧ s ≤ Int32.maxValue.toInt then .ok s
  else .error (.other "integer out of range")

def goodCount (db : Database) (workCenterId : String) (window : Span Int) : Int :=
  ((countsIn db workCenterId window).map fun r => r.good.toInt).sum

def totalCount (db : Database) (workCenterId : String) (window : Span Int) :
    Except SqlError Int :=
  (countsIn db workCenterId window).foldlM
    (fun acc r => (addInt4 r.good r.scrap).map (acc + ·)) 0

/-- Compute OEE over `[start, finish)`. A work center without a row yields no
result row. -/
def oeeSql (db : Database) (workCenterId : String) (start finish : Int) :
    Except RepoError OeeResult :=
  let window : Span Int := ⟨start, finish⟩
  match db.workCenters.lookup workCenterId, totalCount db workCenterId window with
  | none, _ => .error (mapSqlxPlain .rowNotFound)
  | some _, .error e => .error (mapSqlxPlain e)
  | some w, .ok total =>
      let runS := clampedSeconds db workCenterId (stateStr .running) window
      let plannedS := clampedSeconds db workCenterId (stateStr .plannedStop) window
      let good := goodCount db workCenterId window
      let ideal := w.idealCycleSeconds.getD 0
      let plannedProd := epoch (finish - start) - plannedS
      let availability := if 0 < plannedProd then runS / plannedProd else 0
      let performance := min (if 0 < runS then ideal * total / runS else 0) 1
      let quality : ℚ := if 0 < total then (good : ℚ) / total else 0
      .ok
        { availability
          performance
          quality
          oee := availability * performance * quality }

/-- Raw scalar inputs to an OEE calculation, in seconds and pieces. -/
structure OeeInputs where
  plannedProductionS : ℚ
  runS : ℚ
  idealCycleS : ℚ
  totalCount : ℚ
  goodCount : ℚ

def ratio (num den : ℚ) : ℚ := if 0 < den then num / den else 0

/-- Compute OEE from raw inputs: a zero denominator yields a zero factor, and
performance is capped at 1. -/
def compute (i : OeeInputs) : OeeResult :=
  let availability := ratio i.runS i.plannedProductionS
  let performance := min (ratio (i.idealCycleS * i.totalCount) i.runS) 1
  let quality := ratio i.goodCount i.totalCount
  { availability
    performance
    quality
    oee := availability * performance * quality }

/-- Fetch the raw inputs over `[start, finish)`. The window is measured by
`num_milliseconds`, which drops what is left of a millisecond. -/
def oeeInputs (db : Database) (workCenterId : String) (start finish : Int) :
    Except RepoError OeeInputs :=
  let window : Span Int := ⟨start, finish⟩
  match totalCount db workCenterId window with
  | .error e => .error (mapSqlxPlain e)
  | .ok total =>
      let ideal := ((db.workCenters.lookup workCenterId).bind (·.idealCycleSeconds)).getD 0
      let windowS : ℚ := ((finish - start).tdiv 1000 : ℚ) / 1000
      .ok
        { plannedProductionS :=
            windowS - clampedSeconds db workCenterId (stateStr .plannedStop) window
          runS := clampedSeconds db workCenterId (stateStr .running) window
          idealCycleS := ideal
          totalCount := total
          goodCount := goodCount db workCenterId window }

/-- A per-shift OEE row. -/
structure ShiftOee where
  shiftName : String
  start : Int
  finish : Int
  result : OeeResult

def ShiftOee.span (o : ShiftOee) : Span Int := ⟨o.start, o.finish⟩

/-- The shifts of a work center's site, by start time. -/
def shiftsOf (db : Database) (workCenterId : String) : List ShiftRow :=
  match (db.workCenters.lookup workCenterId).bind fun w => db.areas.lookup w.areaId with
  | none => []
  | some a =>
      if a.siteId ∈ db.sites then
        (db.shifts.rows.filter fun sh => sh.siteId = a.siteId).insertionSort
          fun x y => x.startTime.micros ≤ y.startTime.micros
      else []

/-- The date of an instant, in days. -/
def dateNaive (t : Int) : Int := t / dayLength

/-- `while day <= last`. -/
def daysThrough (day last : Int) : List Int :=
  (List.range (last + 1 - day).toNat).map fun i : ℕ => day + i

/-- The occurrence of a shift that starts on a day. An overnight shift ends on the next. -/
def ShiftRow.occurrence (sh : ShiftRow) (day : Int) : Span Int :=
  let s := day * dayLength + sh.startTime.micros
  let e := day * dayLength + sh.endTime.micros
  ⟨s, if e ≤ s then e + dayLength else e⟩

/-- One shift on one day: its occurrence, clamped to the window, unless that is empty. -/
def shiftStep (db : Database) (workCenterId : String) (window : Span Int) (day : Int)
    (out : List ShiftOee) (sh : ShiftRow) : Except RepoError (List ShiftOee) :=
  let s := (sh.occurrence day).clamp window
  if s.hi ≤ s.lo then .ok out
  else do
    let result ← oeeSql db workCenterId s.lo s.hi
    return out ++ [⟨sh.name, s.lo, s.hi, result⟩]

/-- Break OEE down by the shifts of the work center's site across `[start, finish)`. -/
def oeeByShift (db : Database) (workCenterId : String) (start finish : Int) :
    Except RepoError (List ShiftOee) :=
  (daysThrough (dateNaive start) (dateNaive finish)).foldlM
    (fun out day =>
      (shiftsOf db workCenterId).foldlM (shiftStep db workCenterId ⟨start, finish⟩ day) out) []

section Availability

variable {db : Database} {wc : String} {window : Span Int}

theorem epoch_nonneg {d : Int} (h : 0 ≤ d) : 0 ≤ epoch d :=
  div_nonneg (Int.cast_nonneg h) (by norm_num)

theorem epoch_add (a b : Int) : epoch (a + b) = epoch a + epoch b := by
  simp [epoch, add_div]

theorem epoch_le {a b : Int} (h : a ≤ b) : epoch a ≤ epoch b :=
  div_le_div_of_nonneg_right (Int.cast_le.mpr h) (by norm_num)

theorem sum_epoch (l : List MachineStateRow) (f : MachineStateRow → Int) :
    (l.map fun r => epoch (f r)).sum = epoch (l.map f).sum := by
  induction l with
  | nil => simp [epoch]
  | cons r rest ih => simp [ih, epoch_add]

/-- The intervals of a work center are not reversed and pairwise disjoint. -/
structure StatesApart (db : Database) (wc : String) : Prop where
  proper : ∀ r ∈ db.machineStates, r.workCenterId = wc → r.startTs ≤ r.endTs
  apart : ∀ a ∈ db.machineStates, ∀ b ∈ db.machineStates,
    a.workCenterId = wc → b.workCenterId = wc → a ≠ b → Span.Apart a.span b.span

theorem mem_statesIn {state : String} {r : MachineStateRow} :
    r ∈ statesIn db wc state window ↔
      r ∈ db.machineStates ∧ r.workCenterId = wc ∧ r.span.Overlaps window ∧ r.state = state := by
  simp [statesIn]

/-- The running and the planned-stop rows of a window. -/
def availabilityRows (db : Database) (wc : String) (window : Span Int) : List MachineStateRow :=
  statesIn db wc (stateStr .running) window ++ statesIn db wc (stateStr .plannedStop) window

theorem mem_availabilityRows {r : MachineStateRow} (h : r ∈ availabilityRows db wc window) :
    r ∈ db.machineStates ∧ r.workCenterId = wc ∧ r.span.Overlaps window := by
  rcases List.mem_append.mp h with h | h <;>
  · obtain ⟨hr, hwc, hov, -⟩ := mem_statesIn.mp h
    exact ⟨hr, hwc, hov⟩

/-- A row is in one state only, so no row is selected twice. -/
theorem nodup_availabilityRows : (availabilityRows db wc window).Nodup := by
  apply List.Nodup.append
  · exact db.machineStates.nodup_rows.filter _
  · exact db.machineStates.nodup_rows.filter _
  · intro r hrun hplan
    have hstate := (mem_statesIn.mp hrun).2.2.2.symm.trans (mem_statesIn.mp hplan).2.2.2
    exact absurd (stateStr_injective hstate) (by decide)

theorem clamped_pairwise (h : StatesApart db wc) :
    ((availabilityRows db wc window).map fun r => r.span.clamp window).Pairwise Span.Apart := by
  rw [List.pairwise_map]
  apply nodup_availabilityRows.pairwise_of_forall_ne
  intro a ha b hb hne
  obtain ⟨ha', hwa, -⟩ := mem_availabilityRows ha
  obtain ⟨hb', hwb, -⟩ := mem_availabilityRows hb
  exact (h.apart a ha' b hb' hwa hwb hne).clamp window

/-- Running and planned time are together no longer than the window. -/
theorem run_add_planned_le (h : StatesApart db wc) (hw : window.lo ≤ window.hi) :
    clampedSeconds db wc (stateStr .running) window +
        clampedSeconds db wc (stateStr .plannedStop) window ≤ epoch window.length := by
  have hsum : clampedSeconds db wc (stateStr .running) window +
      clampedSeconds db wc (stateStr .plannedStop) window =
        epoch (((availabilityRows db wc window).map fun r => r.span.clamp window).map
          Span.length).sum := by
    unfold clampedSeconds
    rw [List.map_map, ← List.sum_append, ← List.map_append]
    exact sum_epoch _ _
  rw [hsum]
  apply epoch_le
  apply sum_length_le
  · intro s hs
    obtain ⟨r, hr, rfl⟩ := List.mem_map.mp hs
    obtain ⟨hr', hwc, hov⟩ := mem_availabilityRows hr
    exact hov.clamp_le (h.proper r hr' hwc) hw
  · exact clamped_pairwise h
  · intro s hs
    obtain ⟨r, -, rfl⟩ := List.mem_map.mp hs
    exact ⟨le_max_right _ _, min_le_right _ _⟩
  · exact hw

theorem clampedSeconds_nonneg (h : StatesApart db wc) (hw : window.lo ≤ window.hi)
    (state : String) :
    0 ≤ clampedSeconds db wc state window := by
  apply List.sum_nonneg
  intro x hx
  obtain ⟨r, hr, rfl⟩ := List.mem_map.mp hx
  obtain ⟨hr', hwc, hov, -⟩ := mem_statesIn.mp hr
  exact epoch_nonneg (sub_nonneg.mpr (hov.clamp_le (h.proper r hr' hwc) hw))

/-- Over disjoint states the computed availability is a ratio. -/
theorem oeeSql_availability {start finish : Int} {res : OeeResult} (h : StatesApart db wc)
    (hw : start ≤ finish) (hres : oeeSql db wc start finish = .ok res) :
    0 ≤ res.availability ∧ res.availability ≤ 1 := by
  have hrun : 0 ≤ clampedSeconds db wc (stateStr .running) ⟨start, finish⟩ :=
    clampedSeconds_nonneg h hw (stateStr .running)
  have hle : clampedSeconds db wc (stateStr .running) ⟨start, finish⟩ +
      clampedSeconds db wc (stateStr .plannedStop) ⟨start, finish⟩ ≤ epoch (finish - start) :=
    run_add_planned_le h hw
  unfold oeeSql at hres
  dsimp only at hres
  split at hres
  · cases hres
  · cases hres
  · cases hres
    dsimp only
    split
    · rename_i hpos
      refine ⟨div_nonneg hrun hpos.le, ?_⟩
      rw [div_le_one₀ hpos]
      linarith
    · exact ⟨le_rfl, zero_le_one⟩

end Availability

end ElectronixMes.Db
