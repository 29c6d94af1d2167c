import ElectronixMes.AgentTools.Tools
import ElectronixMes.Serde.Members
import Mathlib.Algebra.Ring.Int.Defs

/-!
# The totals of the work-order tool

The tool counts the orders of the page that it has fetched, which holds at most 200 of
them. Counting itself is exact: every order of the page is counted once, under its status.
So the totals are those of the tenant as long as its matching orders fit in one page.
-/

namespace ElectronixMes.AgentTools

open Db Relational Serde

section Counting

variable {counts : List (String × Int)} {status : String}

theorem fst_mem_bump {e : String × Int} (h : e ∈ bump status counts) :
    e.1 = status ∨ ∃ e' ∈ counts, e'.1 = e.1 := by
  induction counts with
  | nil =>
      rw [bump, List.mem_singleton] at h
      exact Or.inl (congrArg Prod.fst h)
  | cons p rest ih =>
      obtain ⟨s, n⟩ := p
      rw [bump] at h
      split at h
      · rename_i heq
        apply (List.mem_cons.mp h).imp
        · intro hhead
          rw [hhead, heq]
        · intro htail
          exact ⟨e, List.mem_cons_of_mem _ htail, rfl⟩
      · split at h
        · apply (List.mem_cons.mp h).imp
          · exact congrArg Prod.fst
          · intro htail
            exact ⟨e, htail, rfl⟩
        · apply (List.mem_cons.mp h).elim
          · intro hhead
            exact Or.inr ⟨(s, n), List.mem_cons_self, (congrArg Prod.fst hhead).symm⟩
          · intro htail
            apply (ih htail).imp_right
            intro hkey
            obtain ⟨e', he', heq⟩ := hkey
            exact ⟨e', List.mem_cons_of_mem _ he', heq⟩

theorem bump_ascending (h : Ascending counts) : Ascending (bump status counts) := by
  induction counts with
  | nil => exact Ascending.singleton status 1
  | cons p rest ih =>
      obtain ⟨s, n⟩ := p
      obtain ⟨hlt, hrest⟩ := Ascending.cons_iff.mp h
      rw [bump]
      split
      · exact Ascending.cons_iff.mpr ⟨hlt, hrest⟩
      · rename_i hne
        split
        · rename_i hless
          refine Ascending.cons_iff.mpr ⟨?_, h⟩
          rw [List.forall_mem_cons]
          exact ⟨hless, fun q hq => hless.trans (hlt q hq)⟩
        · rename_i hnot
          refine Ascending.cons_iff.mpr ⟨?_, ih hrest⟩
          intro q hq
          apply (fst_mem_bump hq).elim
          · intro hkey
            rw [hkey]
            exact lt_of_le_of_ne (not_lt.mp hnot) (Ne.symm hne)
          · intro hkey
            obtain ⟨e', he', heq⟩ := hkey
            rw [← heq]
            exact hlt e' he'

/-- One status counts one order more, and no other status is touched. -/
theorem lookup_bump (h : Ascending counts) (k : String) :
    (bump status counts).lookup k =
      if k = status then some ((counts.lookup status).getD 0 + 1) else counts.lookup k := by
  induction counts with
  | nil => simp [bump, Ascending.lookup_cons]
  | cons p rest ih =>
      obtain ⟨s, n⟩ := p
      obtain ⟨hlt, hrest⟩ := Ascending.cons_iff.mp h
      rw [bump]
      split
      · rename_i heq
        simp only [Ascending.lookup_cons, heq, if_true, Option.getD_some]
        by_cases hk : k = s
        · simp [hk]
        · simp [hk]
      · rename_i hne
        split
        · rename_i hless
          -- a status before the first key is not there yet
          have habsent : ((s, n) :: rest).lookup status = none := by
            apply Ascending.lookup_eq_none.mpr
            rw [List.forall_mem_cons]
            exact ⟨Ne.symm hne, fun q hq => (hless.trans (hlt q hq)).ne'⟩
          rw [habsent, Ascending.lookup_cons]
          rfl
        · rw [Ascending.lookup_cons, ih hrest, Ascending.lookup_cons, Ascending.lookup_cons,
            if_neg hne]
          by_cases hk : k = s
          · have hks : k ≠ status := by
              intro heq
              exact hne (heq ▸ hk)
            rw [if_pos hk, if_neg hks, if_pos hk]
          · simp only [if_neg hk]

theorem sum_bump (status : String) (counts : List (String × Int)) :
    ((bump status counts).map Prod.snd).sum = (counts.map Prod.snd).sum + 1 := by
  induction counts with
  | nil => rfl
  | cons p rest ih =>
      obtain ⟨s, n⟩ := p
      rw [bump]
      split
      · simp only [List.map_cons, List.sum_cons]
        omega
      · split
        · simp only [List.map_cons, List.sum_cons]
          omega
        · simp only [List.map_cons, List.sum_cons, ih]
          omega

end Counting

section Page

/-- How many of the orders have a status. -/
def statusCount (orders : List WorkOrderRow) (status : String) : ℕ :=
  orders.countP fun w => w.status = status

theorem countsByStatus_concat (rows : List WorkOrderRow) (w : WorkOrderRow) :
    countsByStatus (rows ++ [w]) = bump w.status (countsByStatus rows) := by
  simp only [countsByStatus, List.foldl_append, List.foldl_cons, List.foldl_nil]

theorem statusCount_concat (rows : List WorkOrderRow) (w : WorkOrderRow) (status : String) :
    statusCount (rows ++ [w]) status
      = statusCount rows status + if w.status = status then 1 else 0 := by
  simp [statusCount, List.countP_append, List.countP_singleton]

theorem countsByStatus_ascending (rows : List WorkOrderRow) : Ascending (countsByStatus rows) :=
  List.foldlRecOn rows (fun counts w => bump w.status counts) Ascending.nil
    fun _ h _ _ => bump_ascending h

/-- Every order is counted under its status, and a status without an order has no entry. -/
theorem lookup_countsByStatus (rows : List WorkOrderRow) (status : String) :
    (countsByStatus rows).lookup status =
      if statusCount rows status = 0 then none else some (statusCount rows status : Int) := by
  induction rows using List.reverseRecOn with
  | nil => rfl
  | append_singleton rows w ih =>
      rw [countsByStatus_concat, lookup_bump (countsByStatus_ascending rows),
        statusCount_concat]
      by_cases hstatus : w.status = status
      · subst hstatus
        rw [ih]
        by_cases hzero : statusCount rows w.status = 0
        · simp [hzero]
        · simp [hzero]
      · rw [if_neg (Ne.symm hstatus), ih, if_neg hstatus, Nat.add_zero]

theorem sum_countsByStatus (rows : List WorkOrderRow) :
    ((countsByStatus rows).map Prod.snd).sum = rows.length := by
  induction rows using List.reverseRecOn with
  | nil => rfl
  | append_singleton rows w ih =>
      rw [countsByStatus_concat, sum_bump, ih]
      simp

/-- The counts do not depend on the order of the page. -/
theorem statusCount_perm {rows orders : List WorkOrderRow} (h : rows.Perm orders)
    (status : String) : statusCount rows status = statusCount orders status :=
  h.countP_eq _

end Page

section Answer

variable {c : Codec} {db : Database} {scope : TenantScope} {args answer : Json}

/-- The status that a call filters by. -/
def statusFilter (args : Json) : Option String := (args.get? "status").bind Json.asString

/-- What the numbers of an object add up to. -/
def sumOfMembers : Json → Int
  | .obj fields => (fields.map fun e =>
      match e.2 with
      | .int n => n
      | _ => 0).sum
  | _ => 0

/-- The totals of an answer are the numbers of these orders, overall and under each status. -/
structure RealTotals (orders : List WorkOrderRow) (answer : Json) : Prop where
  total : answer.get? "total" = some (.int orders.length)
  counts : ∀ status, (answer.get? "counts_by_status").bind (·.get? status) =
    if statusCount orders status = 0 then none else some (.int (statusCount orders status))
  sum : (answer.get? "counts_by_status").map sumOfMembers = some (orders.length : Int)

/-- The answer over a page. -/
def woAnswer (c : Codec) (rows : List WorkOrderRow) : Json :=
  .obj [("counts_by_status", .obj ((countsByStatus rows).map fun e => (e.1, .int e.2))),
    ("total", .int rows.length), ("work_orders", .arr (rows.map (woItem c)))]

theorem lookup_map_int (counts : List (String × Int)) (k : String) :
    (counts.map fun e => (e.1, Json.int e.2)).lookup k = (counts.lookup k).map Json.int := by
  induction counts with
  | nil => rfl
  | cons p rest ih =>
      rw [List.map_cons, Ascending.lookup_cons, Ascending.lookup_cons, ih]
      by_cases hk : k = p.1
      · simp [hk]
      · simp [hk]

theorem woAnswer_total (c : Codec) (rows : List WorkOrderRow) :
    (woAnswer c rows).get? "total" = some (.int rows.length) := rfl

theorem woAnswer_counts (c : Codec) (rows : List WorkOrderRow) :
    (woAnswer c rows).get? "counts_by_status"
      = some (.obj ((countsByStatus rows).map fun e => (e.1, .int e.2))) := rfl

/-- Counting is exact: an answer tells the totals of its own page. -/
theorem realTotals_woAnswer (c : Codec) (rows : List WorkOrderRow) :
    RealTotals rows (woAnswer c rows) := by
  constructor
  · exact woAnswer_total c rows
  · intro status
    rw [woAnswer_counts, Option.bind_some, Json.get?, lookup_map_int, lookup_countsByStatus]
    split
    · rfl
    · rfl
  · rw [woAnswer_counts, Option.map_some, sumOfMembers, List.map_map]
    exact congrArg some (sum_countsByStatus rows)

/-- Which orders are counted matters, and not where they stand. -/
theorem RealTotals.of_perm {rows orders : List WorkOrderRow} (h : RealTotals rows answer)
    (hperm : rows.Perm orders) : RealTotals orders answer := by
  constructor
  · rw [h.total, hperm.length_eq]
  · intro status
    rw [h.counts, statusCount_perm hperm]
  · rw [h.sum, hperm.length_eq]

/-- A call that answers has counted the latest 200 matching orders. -/
theorem getWoStatus_eq_ok (h : getWoStatus c db scope args = .ok answer) :
    answer = woAnswer c (((matchingOrders db scope.orgId (statusFilter args)).insertionSort
      fun a b => b.createdAt ≤ a.createdAt).take 200) := by
  unfold getWoStatus woStatusRows at h
  dsimp only at h
  split at h
  · exact absurd h (by simp [Except.map])
  · exact (Except.ok.inj h).symm

/-- Whatever the filter, the total is cut at the size of a page. -/
theorem getWoStatus_total (h : getWoStatus c db scope args = .ok answer) :
    answer.get? "total" =
      some (.int (min 200 (matchingOrders db scope.orgId (statusFilter args)).length : ℕ)) := by
  rw [getWoStatus_eq_ok h, woAnswer_total, List.length_take, List.length_insertionSort]

/-- A call that answers tells the real totals if and only if the matching orders of the
tenant fit in one page. -/
theorem wo_totals_real_iff (c : Codec) (db : Database) (scope : TenantScope) (args answer : Json)
    (h : getWoStatus c db scope args = .ok answer) :
    RealTotals (matchingOrders db scope.orgId (statusFilter args)) answer ↔
      (matchingOrders db scope.orgId (statusFilter args)).length ≤ 200 := by
  constructor
  · intro hreal
    have htotal := hreal.total.symm.trans (getWoStatus_total h)
    simp only [Option.some.injEq, Json.int.injEq] at htotal
    omega
  · intro hfits
    have hperm := List.perm_insertionSort
      (fun a b : WorkOrderRow => b.createdAt ≤ a.createdAt)
      (matchingOrders db scope.orgId (statusFilter args))
    have hpage := hperm.length_eq.trans_le hfits
    rw [getWoStatus_eq_ok h, List.take_of_length_le hpage]
    exact (realTotals_woAnswer c _).of_perm hperm

end Answer

section FullPage

def linePlant : PlantRow := ⟨"line", "acme", "L1", "Line 1", none, none⟩

/-- As many strokes as a number says. -/
def tally (i : ℕ) : String := String.ofList (List.replicate i 'x')

def lineOrder (i : ℕ) : WorkOrderRow :=
  ⟨tally i, tally i, "part", none, ⟨10, 0⟩, 0, "draft", none, none, some "line", i, i⟩

theorem tally_injective : Function.Injective tally := by
  intro i j h
  have hlists : List.replicate i 'x' = List.replicate j 'x' := String.ofList_inj.mp h
  simpa using congrArg List.length hlists

/-- One plant with `n` draft orders, each under a number of its own. -/
def lineCloud (n : ℕ) : Database where
  plants := ⟨[linePlant], List.nodup_singleton _⟩
  workOrders := ⟨(List.range n).map lineOrder, by
    rw [List.map_map]
    exact List.nodup_range.map tally_injective⟩

theorem matchingOrders_lineCloud (n : ℕ) :
    matchingOrders (lineCloud n) "acme" none = (List.range n).map lineOrder := by
  apply List.filter_eq_self.mpr
  intro w hw
  obtain ⟨i, -, rfl⟩ := List.mem_map.mp hw
  rfl

theorem getWoStatus_lineCloud (n : ℕ) :
    getWoStatus Codec.sample (lineCloud n) ⟨"acme"⟩ (.obj []) =
      .ok (woAnswer Codec.sample (((matchingOrders (lineCloud n) "acme" none).insertionSort
        fun a b => b.createdAt ≤ a.createdAt).take 200)) := by
  have htext : ¬ ∃ text ∈ "acme" :: (none : Option String).toList, text.contains '\x00' := by
    simp [String.contains_char_eq]
  unfold getWoStatus woStatusRows
  exact congrArg (Except.map _) (if_neg htext)

/-- With 201 orders of the tenant one of them is not counted. -/
theorem totals_miss_an_order :
    ¬ ∀ (c : Codec) (db : Database) (scope : TenantScope) (args answer : Json),
        getWoStatus c db scope args = .ok answer →
          RealTotals (matchingOrders db scope.orgId (statusFilter args)) answer := by
  intro hall
  have hreal := hall _ _ _ _ _ (getWoStatus_lineCloud 201)
  have htotal := hreal.total.symm.trans (getWoStatus_total (getWoStatus_lineCloud 201))
  have hlength : (matchingOrders (lineCloud 201) "acme" (statusFilter (.obj []))).length = 201 := by
    rw [show statusFilter (.obj []) = none from rfl, matchingOrders_lineCloud, List.length_map,
      List.length_range]
  rw [hlength] at htotal
  simp at htotal

/-- Two orders are both counted. -/
theorem two_orders_counted :
    RealTotals (matchingOrders (lineCloud 2) "acme" none)
      (woAnswer Codec.sample (((matchingOrders (lineCloud 2) "acme" none).insertionSort
        fun a b => b.createdAt ≤ a.createdAt).take 200)) := by
  have hfits : (matchingOrders (lineCloud 2) "acme" none).length ≤ 200 := by
    rw [matchingOrders_lineCloud]
    decide
  exact (wo_totals_real_iff Codec.sample (lineCloud 2) ⟨"acme"⟩ (.obj []) _
    (getWoStatus_lineCloud 2)).mpr hfits

end FullPage

end ElectronixMes.AgentTools
