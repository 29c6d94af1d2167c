import Mathlib.Algebra.Order.BigOperators.Group.List
import Mathlib.Algebra.Order.Field.Rat
import Mathlib.Data.List.Sort
import Mathlib.Data.String.Basic
import Mathlib.Tactic.FieldSimp
import Mathlib.Tactic.Linarith
import Mathlib.Tactic.Ring

/-!
# Pareto ranking (crates/mes-core/src/analytics.rs)

Categories with time on them are ranked by it and get their share of the total
and the share through their row.

## Implementation notes

Seconds are 64-bit integers whose sums wrap. Shares are rationals where the code
has floats.
-/

namespace ElectronixMes.Core

/-- One aggregated category, before ranking. -/
structure ParetoInput where
  key : String
  label : String
  seconds : Int64
  deriving DecidableEq

/-- A ranked category. -/
structure ParetoRow where
  key : String
  label : String
  seconds : Int64
  pct : ℚ
  cumulativePct : ℚ
  deriving DecidableEq

namespace ParetoInput

/-- The order of the ranking: more seconds first, ties by the key. -/
def Precedes (a b : ParetoInput) : Prop :=
  b.seconds < a.seconds ∨ a.seconds = b.seconds ∧ a.key ≤ b.key

/-- The order on categories with different keys. -/
def Before (a b : ParetoInput) : Prop :=
  b.seconds < a.seconds ∨ a.seconds = b.seconds ∧ a.key < b.key

instance : DecidableRel Precedes := fun a b =>
  inferInstanceAs (Decidable (b.seconds < a.seconds ∨ a.seconds = b.seconds ∧ a.key ≤ b.key))

instance : Std.Total Precedes where
  total a b := by
    simp only [Precedes, Int64.lt_iff_toInt_lt, ← Int64.toInt_inj]
    have hkey := le_total a.key b.key
    have hseconds := lt_trichotomy a.seconds.toInt b.seconds.toInt
    tauto

instance : IsTrans ParetoInput Precedes where
  trans a b c := by
    simp only [Precedes, Int64.lt_iff_toInt_lt, ← Int64.toInt_inj]
    rintro (hab | ⟨hab, hkey⟩) (hbc | ⟨hbc, hkey'⟩)
    · exact Or.inl (hbc.trans hab)
    · exact Or.inl (hbc ▸ hab)
    · exact Or.inl (hab ▸ hbc)
    · exact Or.inr ⟨hab.trans hbc, hkey.trans hkey'⟩

instance : Std.Antisymm Before where
  antisymm a b := by
    simp only [Before, Int64.lt_iff_toInt_lt, ← Int64.toInt_inj]
    rintro (hab | ⟨hab, hkey⟩) (hba | ⟨hba, hkey'⟩)
    · omega
    · omega
    · omega
    · exact absurd hkey hkey'.asymm

theorem Precedes.before {a b : ParetoInput} (h : Precedes a b) (hkey : a.key ≠ b.key) :
    Before a b := by
  rcases h with h | ⟨hseconds, h⟩
  · exact Or.inl h
  · exact Or.inr ⟨hseconds, lt_of_le_of_ne h hkey⟩

end ParetoInput

/-- A number of seconds as a share of the total, 0 to 100. -/
def share (seconds total : Int64) : ℚ := seconds.toInt * 100 / total.toInt

/-- The map over the ranked categories, with the running sum. -/
def rankRows (total : Int64) : Int64 → List ParetoInput → List ParetoRow
  | _, [] => []
  | running, i :: rest =>
      ⟨i.key, i.label, i.seconds, share i.seconds total, share (running + i.seconds) total⟩ ::
        rankRows total (running + i.seconds) rest

/-- The categories with time on them, ranked. -/
def ranked (inputs : List ParetoInput) : List ParetoInput :=
  (inputs.filter fun i => 0 < i.seconds).insertionSort ParetoInput.Precedes

/-- Rank categories and compute share and cumulative share. -/
def pareto (inputs : List ParetoInput) : List ParetoRow :=
  let total := ((ranked inputs).map ParetoInput.seconds).sum
  if total = 0 then [] else rankRows total 0 (ranked inputs)

section Sums

variable {l : List ParetoInput} {running total : Int64}

/-- The seconds of a list of categories, without wrapping. -/
def secondsOf (l : List ParetoInput) : Int := (l.map fun i => i.seconds.toInt).sum

@[simp] theorem secondsOf_nil : secondsOf [] = 0 := rfl

@[simp] theorem secondsOf_cons (i : ParetoInput) (l : List ParetoInput) :
    secondsOf (i :: l) = i.seconds.toInt + secondsOf l := by
  simp [secondsOf]

/-- There is time on every category, and their sum on top of `running` fits 64 bits. -/
structure Fits (running : Int64) (l : List ParetoInput) : Prop where
  running_nonneg : 0 ≤ running.toInt
  pos : ∀ i ∈ l, 0 < i.seconds.toInt
  lt : running.toInt + secondsOf l < 2 ^ 63

theorem secondsOf_nonneg (h : ∀ i ∈ l, 0 < i.seconds.toInt) : 0 ≤ secondsOf l := by
  induction l with
  | nil => simp
  | cons i rest ih =>
      have hi := h i List.mem_cons_self
      have hrest := ih fun j hj => h j (List.mem_cons_of_mem i hj)
      simp only [secondsOf_cons]
      omega

theorem toInt_add_of_lt {a b : Int64} (ha : 0 ≤ a.toInt) (hb : 0 ≤ b.toInt)
    (h : a.toInt + b.toInt < 2 ^ 63) : (a + b).toInt = a.toInt + b.toInt := by
  rw [Int64.toInt_add]
  apply Int.bmod_eq_of_le <;> omega

/-- The running sum after the first category does not wrap. -/
theorem Fits.toInt_add {i : ParetoInput} (h : Fits running (i :: l)) :
    (running + i.seconds).toInt = running.toInt + i.seconds.toInt := by
  have hi := h.pos i List.mem_cons_self
  have hrest := secondsOf_nonneg fun j hj => h.pos j (List.mem_cons_of_mem i hj)
  have hlt := h.lt
  simp only [secondsOf_cons] at hlt
  apply toInt_add_of_lt h.running_nonneg <;> omega

theorem Fits.tail {i : ParetoInput} (h : Fits running (i :: l)) :
    Fits (running + i.seconds) l := by
  have hi := h.pos i List.mem_cons_self
  have hlt := h.lt
  have hnonneg := h.running_nonneg
  simp only [secondsOf_cons] at hlt
  constructor
  · rw [h.toInt_add]
    omega
  · intro j hj
    exact h.pos j (List.mem_cons_of_mem i hj)
  · rw [h.toInt_add]
    omega

/-- The sum the code takes is the sum of the seconds. -/
theorem Fits.toInt_sum (h : Fits running l) :
    (running + (l.map ParetoInput.seconds).sum).toInt = running.toInt + secondsOf l := by
  induction l generalizing running with
  | nil => simp
  | cons i rest ih =>
      rw [List.map_cons, List.sum_cons, ← Int64.add_assoc, ih h.tail, h.toInt_add]
      simp only [secondsOf_cons]
      omega

end Sums

section Rows

variable {l : List ParetoInput} {running total : Int64}

theorem share_add {a b : Int64} (h : (a + b).toInt = a.toInt + b.toInt) (total : Int64) :
    share (a + b) total = share a total + share b total := by
  unfold share
  rw [h]
  push_cast
  ring

theorem share_pos {a : Int64} (ha : 0 < a.toInt) (htotal : 0 < total.toInt) :
    0 < share a total := by
  have ha' : (0 : ℚ) < a.toInt := by exact_mod_cast ha
  have htotal' : (0 : ℚ) < total.toInt := by exact_mod_cast htotal
  exact div_pos (mul_pos ha' (by norm_num)) htotal'

theorem share_self (h : total.toInt ≠ 0) : share total total = 100 := by
  have h' : (total.toInt : ℚ) ≠ 0 := by exact_mod_cast h
  unfold share
  field_simp

/-- The rows carry the categories they were made from. -/
theorem rankRows_inputs (total running : Int64) (l : List ParetoInput) :
    (rankRows total running l).map (fun r => (⟨r.key, r.label, r.seconds⟩ : ParetoInput)) = l := by
  induction l generalizing running with
  | nil => rfl
  | cons i rest ih => simp [rankRows, ih]

theorem rankRows_pct (total running : Int64) (l : List ParetoInput) :
    ∀ r ∈ rankRows total running l, r.pct = share r.seconds total := by
  induction l generalizing running with
  | nil => simp [rankRows]
  | cons i rest ih =>
      simp only [rankRows, List.mem_cons]
      rintro r (rfl | hr)
      · rfl
      · exact ih _ r hr

/-- The cumulative share of a row is the share it started from and those through the row. -/
theorem rankRows_cumulative (h : Fits running l) (total : Int64) (k : ℕ) (r : ParetoRow)
    (hr : (rankRows total running l)[k]? = some r) :
    r.cumulativePct = share running total +
      (((rankRows total running l).take (k + 1)).map ParetoRow.pct).sum := by
  induction l generalizing running k with
  | nil => simp [rankRows] at hr
  | cons i rest ih =>
      have hadd := share_add h.toInt_add total
      cases k with
      | zero =>
          simp only [rankRows, List.getElem?_cons_zero, Option.some.injEq] at hr
          subst hr
          simp [rankRows, hadd]
      | succ k =>
          simp only [rankRows, List.getElem?_cons_succ] at hr
          rw [ih h.tail k hr, hadd]
          simp [rankRows, add_assoc]

theorem rankRows_lt (h : Fits running l) (htotal : 0 < total.toInt) :
    ∀ r ∈ rankRows total running l, share running total < r.cumulativePct := by
  induction l generalizing running with
  | nil => simp [rankRows]
  | cons i rest ih =>
      have hfirst : share running total < share (running + i.seconds) total := by
        rw [share_add h.toInt_add total]
        linarith [share_pos (h.pos i List.mem_cons_self) htotal]
      simp only [rankRows, List.mem_cons]
      rintro r (rfl | hr)
      · exact hfirst
      · exact hfirst.trans (ih h.tail r hr)

theorem rankRows_increasing (h : Fits running l) (htotal : 0 < total.toInt) :
    (rankRows total running l).Pairwise fun a b => a.cumulativePct < b.cumulativePct := by
  induction l generalizing running with
  | nil => simp [rankRows]
  | cons i rest ih =>
      rw [rankRows, List.pairwise_cons]
      exact ⟨rankRows_lt h.tail htotal, ih h.tail⟩

theorem rankRows_last (total running : Int64) (l : List ParetoInput) {r : ParetoRow}
    (hr : (rankRows total running l).getLast? = some r) :
    r.cumulativePct = share (running + (l.map ParetoInput.seconds).sum) total := by
  induction l generalizing running with
  | nil => simp [rankRows] at hr
  | cons i rest ih =>
      rw [List.map_cons, List.sum_cons, ← Int64.add_assoc]
      cases rest with
      | nil =>
          simp only [rankRows, List.getLast?_singleton, Option.some.injEq] at hr
          subst hr
          simp
      | cons j more =>
          apply ih
          simpa [rankRows] using hr

end Rows

section Ranking

variable {inputs : List ParetoInput}

theorem perm_ranked (inputs : List ParetoInput) :
    (ranked inputs).Perm (inputs.filter fun i => 0 < i.seconds) :=
  List.perm_insertionSort ParetoInput.Precedes _

theorem mem_ranked {i : ParetoInput} : i ∈ ranked inputs ↔ i ∈ inputs ∧ 0 < i.seconds := by
  simp [ranked]

theorem nodup_ranked (h : (inputs.map ParetoInput.key).Nodup) :
    ((ranked inputs).map ParetoInput.key).Nodup := by
  apply ((perm_ranked inputs).map ParetoInput.key).nodup_iff.mpr
  exact (List.filter_sublist.map ParetoInput.key).nodup h

theorem ranked_before (h : (inputs.map ParetoInput.key).Nodup) :
    (ranked inputs).Pairwise ParetoInput.Before := by
  have hsorted : (ranked inputs).Pairwise ParetoInput.Precedes :=
    List.pairwise_insertionSort ParetoInput.Precedes _
  have hkeys : (ranked inputs).Pairwise fun a b => a.key ≠ b.key :=
    List.pairwise_map.mp (nodup_ranked h)
  apply hsorted.imp₂ _ hkeys
  intro a b hab hkey
  exact hab.before hkey

/-- With different keys the order of the input does not matter. -/
theorem ranked_perm {inputs' : List ParetoInput} (hperm : inputs'.Perm inputs)
    (h : (inputs.map ParetoInput.key).Nodup) : ranked inputs' = ranked inputs := by
  have h' : (inputs'.map ParetoInput.key).Nodup := (hperm.map _).nodup_iff.mpr h
  apply List.Perm.eq_of_pairwise' (ranked_before h') (ranked_before h)
  calc
    (ranked inputs').Perm (inputs'.filter fun i => 0 < i.seconds) := perm_ranked inputs'
    List.Perm _ (inputs.filter fun i => 0 < i.seconds) := hperm.filter _
    List.Perm _ (ranked inputs) := (perm_ranked inputs).symm

theorem secondsOf_ranked (inputs : List ParetoInput) :
    secondsOf (ranked inputs) = secondsOf (inputs.filter fun i => 0 < i.seconds) :=
  ((perm_ranked inputs).map _).sum_eq

theorem fits_ranked (h : secondsOf (inputs.filter fun i => 0 < i.seconds) < 2 ^ 63) :
    Fits 0 (ranked inputs) := by
  constructor
  · simp
  · intro i hi
    simpa [Int64.lt_iff_toInt_lt] using (mem_ranked.mp hi).2
  · simpa [secondsOf_ranked] using h

/-- The total the code divides by. -/
def rankedTotal (inputs : List ParetoInput) : Int64 :=
  ((ranked inputs).map ParetoInput.seconds).sum

theorem toInt_rankedTotal (h : Fits 0 (ranked inputs)) :
    (rankedTotal inputs).toInt = secondsOf (ranked inputs) := by
  simpa [rankedTotal] using h.toInt_sum

/-- Without a category to rank the total is zero, and only then. -/
theorem rankedTotal_pos (h : Fits 0 (ranked inputs)) (hne : ranked inputs ≠ []) :
    0 < (rankedTotal inputs).toInt := by
  rw [toInt_rankedTotal h]
  obtain ⟨i, rest, hlist⟩ := List.exists_cons_of_ne_nil hne
  rw [hlist] at h ⊢
  have hi := h.pos i List.mem_cons_self
  have hrest := secondsOf_nonneg fun j hj => h.pos j (List.mem_cons_of_mem i hj)
  simp only [secondsOf_cons]
  omega

theorem pareto_eq (h : Fits 0 (ranked inputs)) :
    pareto inputs = rankRows (rankedTotal inputs) 0 (ranked inputs) := by
  by_cases hnil : ranked inputs = []
  · simp [pareto, hnil, rankRows]
  · have hpos := rankedTotal_pos h hnil
    have hne : rankedTotal inputs ≠ 0 := by
      intro heq
      simp [heq] at hpos
    exact if_neg hne

end Ranking

/-- The ranking lists the categories with time on them, each once, in its order; it
does not depend on the order of the input; the cumulative shares add up the shares,
increase and end at 100. -/
theorem pareto_ranks (inputs : List ParetoInput)
    (hkeys : (inputs.map ParetoInput.key).Nodup)
    (hsum : secondsOf (inputs.filter fun i => 0 < i.seconds) < 2 ^ 63) :
    ((pareto inputs).map fun r => (⟨r.key, r.label, r.seconds⟩ : ParetoInput)).Perm
        (inputs.filter fun i => 0 < i.seconds) ∧
      (pareto inputs).Pairwise (fun a b =>
        b.seconds < a.seconds ∨ a.seconds = b.seconds ∧ a.key < b.key) ∧
      (∀ inputs', inputs'.Perm inputs → pareto inputs' = pareto inputs) ∧
      (∀ r ∈ pareto inputs, r.pct =
        r.seconds.toInt * 100 / (secondsOf (inputs.filter fun i => 0 < i.seconds) : ℚ)) ∧
      (∀ k r, (pareto inputs)[k]? = some r →
        r.cumulativePct = (((pareto inputs).take (k + 1)).map ParetoRow.pct).sum) ∧
      (pareto inputs).Pairwise (fun a b => a.cumulativePct < b.cumulativePct) ∧
      ∀ r, (pareto inputs).getLast? = some r → r.cumulativePct = 100 := by
  have hfits := fits_ranked hsum
  have htotal : 0 < (rankedTotal inputs).toInt ∨ ranked inputs = [] := by
    by_cases hnil : ranked inputs = []
    · exact Or.inr hnil
    · exact Or.inl (rankedTotal_pos hfits hnil)
  have hinputs := rankRows_inputs (rankedTotal inputs) 0 (ranked inputs)
  refine ⟨?_, ?_, ?_, ?_, ?_, ?_, ?_⟩
  · rw [pareto_eq hfits, hinputs]
    exact perm_ranked inputs
  · have hbefore := ranked_before hkeys
    rw [← hinputs, List.pairwise_map] at hbefore
    rw [pareto_eq hfits]
    exact hbefore
  · intro inputs' hperm
    simp only [pareto, ranked_perm hperm hkeys]
  · intro r hr
    rw [pareto_eq hfits] at hr
    rw [rankRows_pct _ _ _ r hr, share, toInt_rankedTotal hfits, secondsOf_ranked]
  · intro k r hr
    rw [pareto_eq hfits] at hr ⊢
    rw [rankRows_cumulative hfits _ k r hr]
    simp [share]
  · rw [pareto_eq hfits]
    rcases htotal with hpos | hnil
    · exact rankRows_increasing hfits hpos
    · simp [hnil, rankRows]
  · intro r hr
    rw [pareto_eq hfits] at hr
    rcases htotal with hpos | hnil
    · rw [rankRows_last _ _ _ hr, Int64.zero_add]
      exact share_self hpos.ne'
    · simp [hnil, rankRows] at hr

/-- Three stops of which two take the same time, and one without any. -/
def stops : List ParetoInput :=
  [⟨"jam", "Jam", 30⟩, ⟨"tool", "Tool", 50⟩, ⟨"idle", "Idle", 0⟩, ⟨"break", "Break", 30⟩]

theorem pareto_ranks_stops :
    (stops.map ParetoInput.key).Nodup ∧
      (pareto stops).map ParetoRow.key = ["tool", "break", "jam"] ∧
      ∀ r, (pareto stops).getLast? = some r → r.cumulativePct = 100 :=
  ⟨by decide, by decide +kernel,
    (pareto_ranks stops (by decide) (by decide)).2.2.2.2.2.2⟩

end ElectronixMes.Core
