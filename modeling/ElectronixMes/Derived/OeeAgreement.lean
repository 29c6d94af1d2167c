import ElectronixMes.Db.RepoOee
import Mathlib.Tactic.FieldSimp
import Mathlib.Tactic.Ring

/-!
# The two OEE paths

Over the fetched inputs and in one query the same factors are computed. Performance and
quality come from the same sums; availability does not, since one path measures the window
in whole milliseconds and the other in microseconds. The paths agree exactly as long as
that cut is small against the time planned for production.
-/

namespace ElectronixMes.Db

open Relational ElectronixMes.Core Timeline

/-- All four numbers of two results are within 0.001 of each other. -/
def OeeResult.Within (a b : OeeResult) : Prop :=
  |a.availability - b.availability| ≤ 1 / 1000 ∧ |a.performance - b.performance| ≤ 1 / 1000 ∧
    |a.quality - b.quality| ≤ 1 / 1000 ∧ |a.oee - b.oee| ≤ 1 / 1000

/-- The engine over the fetched inputs and the query come to the same: results within the
tolerance, or one refusal. -/
def PathsAgree (db : Database) (wc : String) (start finish : Int) : Prop :=
  (∃ a b, (oeeInputs db wc start finish).map compute = .ok a ∧
      oeeSql db wc start finish = .ok b ∧ a.Within b) ∨
    ∃ e, (oeeInputs db wc start finish).map compute = .error e ∧
      oeeSql db wc start finish = .error e

/-- `good + scrap` of a row stays within 32 bits. -/
def FitsInt4 (r : ProductionCountRow) : Prop :=
  Int32.minValue.toInt ≤ r.good.toInt + r.scrap.toInt ∧
    r.good.toInt + r.scrap.toInt ≤ Int32.maxValue.toInt

section Sums

variable (db : Database) (wc : String) (window : Span Int)

/-- The clamped microseconds of a state. -/
def clampedMicros (state : String) : Int :=
  ((statesIn db wc state window).map fun r => (r.span.clamp window).length).sum

/-- Some count of the window leaves 32 bits when good and scrap are added. -/
def CountsOverflow : Prop := ∃ r ∈ countsIn db wc window, ¬ FitsInt4 r

/-- The pieces counted in the window. -/
def piecesIn : Int :=
  ((countsIn db wc window).map fun r => r.good.toInt + r.scrap.toInt).sum

variable {db wc window}

theorem clampedSeconds_eq (state : String) :
    clampedSeconds db wc state window = epoch (clampedMicros db wc window state) :=
  sum_epoch _ _

end Sums

/-- Good pieces times the lesser of ideal seconds per running second and one per piece: the
factor by which a difference in availability shows in the product. -/
def pieceWeight (ideal : ℚ) (run good total : Int) : ℚ :=
  if 0 < run ∧ 0 < total then good * min (ideal / epoch run) (1 / total) else 0

/-- The microseconds that the millisecond measure drops are small against the production
time `net`, given `run` microseconds of running. -/
def CutTolerable (run net cut : Int) (weight : ℚ) : Prop :=
  0 < net →
    if cut < net then 1000 * |(run : ℚ)| * cut * max 1 |weight| ≤ net * (net - cut)
    else 1000 * |(run : ℚ)| * max 1 |weight| ≤ net

section Availability

/-- Running time as a share of the production time. -/
def share (run net : Int) : ℚ := if 0 < net then (run : ℚ) / net else 0

theorem epoch_pos_iff {d : Int} : 0 < epoch d ↔ 0 < d := by
  unfold epoch
  rw [div_pos_iff_of_pos_right (by norm_num), Int.cast_pos]

theorem ratio_epoch (run net : Int) : ratio (epoch run) (epoch net) = share run net := by
  unfold ratio share
  by_cases hnet : 0 < net
  · rw [if_pos (epoch_pos_iff.mpr hnet), if_pos hnet]
    exact div_div_div_cancel_right₀ (by norm_num) _ _
  · rw [if_neg (mt epoch_pos_iff.mp hnet), if_neg hnet]

theorem epoch_sub (a b : Int) : epoch a - epoch b = epoch (a - b) := by
  simp [epoch, sub_div]

/-- The window in whole milliseconds is the window without the cut. -/
theorem wholeMillis_eq {w : Int} (hw : 0 ≤ w) :
    (w.tdiv 1000 : ℚ) / 1000 = epoch (w - w % 1000) := by
  have hdiv : w - w % 1000 = 1000 * w.tdiv 1000 := by
    rw [Int.tdiv_eq_ediv_of_nonneg hw]
    omega
  rw [hdiv, epoch, Int.cast_mul]
  push_cast
  ring

/-- How far the cut moves the share. -/
theorem share_sub_share {run net cut : Int} (hcut : 0 ≤ cut) (hnet : cut < net) :
    |share run (net - cut) - share run net| = |(run : ℚ)| * cut / (net * (net - cut)) := by
  have hpos : 0 < net := by omega
  have hrest : 0 < net - cut := by omega
  have hpos' : (0 : ℚ) < net := Int.cast_pos.mpr hpos
  have hrest' : (0 : ℚ) < net - cut := by exact_mod_cast hrest
  have hdiff : share run (net - cut) - share run net
      = (run : ℚ) * cut / (net * (net - cut)) := by
    rw [share, share, if_pos hrest, if_pos hpos]
    push_cast
    field_simp
    ring
  rw [hdiff, abs_div, abs_mul, abs_of_nonneg (Int.cast_nonneg hcut : (0 : ℚ) ≤ cut),
    abs_of_pos (mul_pos hpos' hrest')]

/-- The shares differ by at most the tolerance, weighted, iff the cut is tolerable. -/
theorem share_within_iff {run net cut : Int} {weight : ℚ} (hcut : 0 ≤ cut) :
    |share run (net - cut) - share run net| * max 1 |weight| ≤ 1 / 1000
      ↔ CutTolerable run net cut weight := by
  unfold CutTolerable
  by_cases hpos : 0 < net
  · have hpos' : (0 : ℚ) < net := Int.cast_pos.mpr hpos
    rw [forall_prop_of_true hpos]
    by_cases hnet : cut < net
    · have hrest' : (0 : ℚ) < net - cut := by exact_mod_cast sub_pos.mpr hnet
      rw [if_pos hnet, share_sub_share hcut hnet, div_mul_eq_mul_div,
        div_le_iff₀ (mul_pos hpos' hrest')]
      constructor <;> intro h <;> linarith
    · have hrest : ¬ 0 < net - cut := by omega
      rw [if_neg hnet, share, share, if_neg hrest, if_pos hpos, zero_sub, abs_neg, abs_div,
        abs_of_pos hpos', div_mul_eq_mul_div, div_le_iff₀ hpos']
      constructor <;> intro h <;> linarith
  · have hrest : ¬ 0 < net - cut := by omega
    rw [share, share, if_neg hrest, if_neg hpos, sub_self, abs_zero, zero_mul]
    constructor
    · intro _ h
      exact absurd h hpos
    · intro _
      norm_num

end Availability

section Counts

variable {db : Database} {wc : String} {window : Span Int}

theorem addInt4_of_fits {r : ProductionCountRow} (h : FitsInt4 r) :
    addInt4 r.good r.scrap = .ok (r.good.toInt + r.scrap.toInt) := by
  unfold addInt4
  exact if_pos h

theorem addInt4_of_not_fits {r : ProductionCountRow} (h : ¬ FitsInt4 r) :
    addInt4 r.good r.scrap = .error (.other "integer out of range") := by
  unfold addInt4
  exact if_neg h

theorem totalCount_of_overflow (h : CountsOverflow db wc window) :
    totalCount db wc window = .error (.other "integer out of range") := by
  have hgeneral : ∀ (l : List ProductionCountRow) (acc : Int), (∃ r ∈ l, ¬ FitsInt4 r) →
      l.foldlM (fun acc r => (addInt4 r.good r.scrap).map (acc + ·)) acc
        = .error (.other "integer out of range") := by
    intro l
    induction l with
    | nil =>
        rintro acc ⟨r, hr, -⟩
        exact absurd hr List.not_mem_nil
    | cons r rest ih =>
        rintro acc ⟨s, hs, hout⟩
        rw [List.foldlM_cons]
        by_cases hr : FitsInt4 r
        · rw [addInt4_of_fits hr]
          rcases List.mem_cons.mp hs with rfl | hs
          · exact absurd hr hout
          · exact ih _ ⟨s, hs, hout⟩
        · rw [addInt4_of_not_fits hr]
          rfl
  exact hgeneral _ 0 h

theorem totalCount_of_not_overflow (h : ¬ CountsOverflow db wc window) :
    totalCount db wc window = .ok (piecesIn db wc window) := by
  have hgeneral : ∀ (l : List ProductionCountRow) (acc : Int), (∀ r ∈ l, FitsInt4 r) →
      l.foldlM (fun acc r => (addInt4 r.good r.scrap).map (acc + ·)) acc
        = .ok (acc + (l.map fun r => r.good.toInt + r.scrap.toInt).sum) := by
    intro l
    induction l with
    | nil =>
        intro acc _
        rw [List.map_nil, List.sum_nil, add_zero]
        rfl
    | cons r rest ih =>
        intro acc hfits
        rw [List.foldlM_cons, addInt4_of_fits (hfits r List.mem_cons_self), List.map_cons,
          List.sum_cons, ← add_assoc]
        exact ih _ fun s hs => hfits s (List.mem_cons_of_mem r hs)
  have hfits : ∀ r ∈ countsIn db wc window, FitsInt4 r := by
    intro r hr
    by_contra hout
    exact h ⟨r, hr, hout⟩
  rw [totalCount, hgeneral _ 0 hfits, zero_add, piecesIn]

/-- Performance times quality, from the sums. -/
theorem performance_mul_quality (ideal : ℚ) (run good total : Int) :
    min (ratio (ideal * total) (epoch run)) 1 * ratio good total
      = pieceWeight ideal run good total := by
  unfold pieceWeight ratio
  by_cases htotal : 0 < total
  · have htotal' : (0 : ℚ) < total := Int.cast_pos.mpr htotal
    rw [if_pos htotal']
    by_cases hrun : 0 < run
    · rw [if_pos (epoch_pos_iff.mpr hrun), if_pos ⟨hrun, htotal⟩]
      have hscale : min (ideal * total / epoch run) 1
          = min (ideal / epoch run) (1 / total) * total := by
        rw [min_mul_of_nonneg _ _ htotal'.le, div_mul_cancel₀ _ htotal'.ne', div_mul_eq_mul_div]
      rw [hscale]
      field_simp
    · rw [if_neg (mt epoch_pos_iff.mp hrun), if_neg (fun h => hrun h.1), min_eq_left zero_le_one,
        zero_mul]
  · rw [if_neg (mt Int.cast_pos.mp htotal), mul_zero, if_neg fun h => htotal h.2]

end Counts

section Paths

/-- The result of an availability and the sums. -/
def factors (availability ideal : ℚ) (run good total : Int) : OeeResult where
  availability := availability
  performance := min (ratio (ideal * total) (epoch run)) 1
  quality := ratio good total
  oee := availability * min (ratio (ideal * total) (epoch run)) 1 * ratio good total

/-- Results that differ in the availability only. -/
theorem factors_within_iff (a b ideal : ℚ) (run good total : Int) :
    (factors a ideal run good total).Within (factors b ideal run good total)
      ↔ |a - b| * max 1 |pieceWeight ideal run good total| ≤ 1 / 1000 := by
  have hoee : (factors a ideal run good total).oee - (factors b ideal run good total).oee
      = (a - b) * pieceWeight ideal run good total := by
    rw [← performance_mul_quality]
    simp only [factors]
    ring
  unfold OeeResult.Within
  rw [hoee, abs_mul, mul_max_of_nonneg _ _ (abs_nonneg _), mul_one, max_le_iff]
  simp [factors]

variable {db : Database} {wc : String} {start finish : Int} {row : WorkCenterRow}

theorem compute_oeeInputs (hrow : db.workCenters.lookup wc = some row) (hw : start < finish)
    (hfits : ¬ CountsOverflow db wc ⟨start, finish⟩) :
    (oeeInputs db wc start finish).map compute
      = .ok (factors
          (share (clampedMicros db wc ⟨start, finish⟩ (stateStr .running))
            (finish - start - clampedMicros db wc ⟨start, finish⟩ (stateStr .plannedStop)
              - (finish - start) % 1000))
          (row.idealCycleSeconds.getD 0)
          (clampedMicros db wc ⟨start, finish⟩ (stateStr .running))
          (goodCount db wc ⟨start, finish⟩) (piecesIn db wc ⟨start, finish⟩)) := by
  have hwindow : finish - start - (finish - start) % 1000
      - clampedMicros db wc ⟨start, finish⟩ (stateStr .plannedStop)
      = finish - start - clampedMicros db wc ⟨start, finish⟩ (stateStr .plannedStop)
        - (finish - start) % 1000 := by
    omega
  unfold oeeInputs
  dsimp only
  rw [totalCount_of_not_overflow hfits]
  simp only [Except.map, compute, factors, hrow, Option.bind_some, clampedSeconds_eq,
    wholeMillis_eq (sub_nonneg.mpr hw.le), epoch_sub, ratio_epoch, hwindow]

theorem oeeSql_eq (hrow : db.workCenters.lookup wc = some row)
    (hfits : ¬ CountsOverflow db wc ⟨start, finish⟩) :
    oeeSql db wc start finish
      = .ok (factors
          (share (clampedMicros db wc ⟨start, finish⟩ (stateStr .running))
            (finish - start - clampedMicros db wc ⟨start, finish⟩ (stateStr .plannedStop)))
          (row.idealCycleSeconds.getD 0)
          (clampedMicros db wc ⟨start, finish⟩ (stateStr .running))
          (goodCount db wc ⟨start, finish⟩) (piecesIn db wc ⟨start, finish⟩)) := by
  unfold oeeSql
  dsimp only
  rw [hrow, totalCount_of_not_overflow hfits]
  simp only [factors, clampedSeconds_eq, epoch_sub, ← ratio_epoch, ratio, Int.cast_pos]

/-- The two paths come to the same exactly when the sum of a count leaves 32 bits (both
refuse) or the microseconds the window has beyond whole milliseconds are tolerable. -/
theorem oee_paths_agree_iff (hrow : db.workCenters.lookup wc = some row)
    (hw : start < finish) :
    PathsAgree db wc start finish ↔
      CountsOverflow db wc ⟨start, finish⟩ ∨
        CutTolerable (clampedMicros db wc ⟨start, finish⟩ (stateStr .running))
          (finish - start - clampedMicros db wc ⟨start, finish⟩ (stateStr .plannedStop))
          ((finish - start) % 1000)
          (pieceWeight (row.idealCycleSeconds.getD 0)
            (clampedMicros db wc ⟨start, finish⟩ (stateStr .running))
            (goodCount db wc ⟨start, finish⟩) (piecesIn db wc ⟨start, finish⟩)) := by
  by_cases hfits : CountsOverflow db wc ⟨start, finish⟩
  · refine iff_of_true (Or.inr ⟨mapSqlxPlain (.other "integer out of range"), ?_, ?_⟩)
      (Or.inl hfits)
    · unfold oeeInputs
      dsimp only
      rw [totalCount_of_overflow hfits]
      rfl
    · unfold oeeSql
      dsimp only
      rw [hrow, totalCount_of_overflow hfits]
  · have hcut : 0 ≤ (finish - start) % 1000 := Int.emod_nonneg _ (by decide)
    rw [or_iff_right hfits, ← share_within_iff hcut, ← factors_within_iff, PathsAgree,
      compute_oeeInputs hrow hw hfits, oeeSql_eq hrow hfits]
    constructor
    · rintro (⟨a, b, ha, hb, hab⟩ | ⟨e, he, -⟩)
      · cases ha
        cases hb
        exact hab
      · cases he
    · intro h
      exact Or.inl ⟨_, _, rfl, rfl, h⟩

/-- A lathe that runs through the given window. -/
def steadyLathe (finish : Int) : Database where
  workCenters := ⟨[{ id := "lathe" }], List.nodup_singleton _⟩
  machineStates := ⟨[⟨"run", "lathe", "running", 0, finish⟩], List.nodup_singleton _⟩

/-- A second and a half is a whole number of milliseconds. -/
theorem steadyLathe_agrees : PathsAgree (steadyLathe 1500000) "lathe" 0 1500000 := by
  have hrow : (steadyLathe 1500000).workCenters.lookup "lathe" = some { id := "lathe" } := rfl
  refine (oee_paths_agree_iff hrow (by decide)).mpr (Or.inr ?_)
  unfold CutTolerable
  decide +kernel

/-- Over a millisecond and a half of running, the query finds an availability of 1 and the
engine, which is told of one millisecond, finds 1.5. -/
theorem steadyLathe_disagrees : ¬ PathsAgree (steadyLathe 1500) "lathe" 0 1500 := by
  rintro (⟨a, b, ha, hb, hab, -⟩ | ⟨e, he, -⟩)
  · cases ha
    cases hb
    revert hab
    decide +kernel
  · cases he

end Paths

end ElectronixMes.Db
