import Mathlib.Data.List.Dedup
import Mathlib.Data.List.MinMax
import Mathlib.Order.Bounds.Basic

/-!
# Walks and the rows of a bounded recursive query

A recursive query that joins its last rows with the edges derives one row for each walk,
with the length of the walk as its depth. Grouped by their end, the least depth of the rows
is the length of a shortest walk.
-/

namespace ElectronixMes.Graph

variable {α β : Type*}

/-- A walk along `n` edges of a relation. -/
inductive Walk (r : α → α → Prop) : ℕ → α → α → Prop
  | nil (a : α) : Walk r 0 a a
  | cons {n : ℕ} {a b c : α} (head : r a b) (tail : Walk r n b c) : Walk r (n + 1) a c

section Walk

variable {r : α → α → Prop} {n : ℕ} {a b c : α}

theorem walk_succ_iff : Walk r (n + 1) a c ↔ ∃ b, r a b ∧ Walk r n b c := by
  constructor
  · intro h
    cases h with
    | cons head tail => exact ⟨_, head, tail⟩
  · rintro ⟨b, head, tail⟩
    exact .cons head tail

theorem Walk.concat (h : Walk r n a b) (last : r b c) : Walk r (n + 1) a c := by
  induction h with
  | nil a => exact .cons last (.nil c)
  | cons head tail ih => exact .cons head (ih last)

theorem Walk.flip (h : Walk r n a b) : Walk (fun x y => r y x) n b a := by
  induction h with
  | nil a => exact .nil a
  | cons head tail ih => exact ih.concat head

/-- Against the edges the same walk leads back. -/
theorem walk_flip_iff : Walk (fun x y => r y x) n b a ↔ Walk r n a b :=
  ⟨Walk.flip, Walk.flip⟩

theorem Walk.append {m : ℕ} (h : Walk r m a b) (h' : Walk r n b c) : Walk r (m + n) a c := by
  induction h with
  | nil a =>
      rw [Nat.zero_add]
      exact h'
  | cons head tail ih =>
      rw [Nat.add_right_comm]
      exact .cons head (ih h')

theorem Walk.mono {s : α → α → Prop} (hrs : ∀ x y, r x y → s x y) (h : Walk r n a b) :
    Walk s n a b := by
  induction h with
  | nil a => exact .nil a
  | cons head tail ih => exact .cons (hrs _ _ head) ih

/-- The relation with one edge more. -/
def withEdge (r : α → α → Prop) (p c : α) (x y : α) : Prop := r x y ∨ x = p ∧ y = c

/-- A walk over the new edge is no shorter than one that takes it once. -/
theorem Walk.split_edge {p q : α} (h : Walk (withEdge r p q) n a b) :
    Walk r n a b ∨ ∃ i j, i + 1 + j ≤ n ∧ Walk r i a p ∧ Walk r j q b := by
  induction h with
  | nil a => exact Or.inl (.nil a)
  | @cons n a m b head tail ih =>
      rcases head with head | ⟨rfl, rfl⟩
      · apply ih.imp (.cons head)
        rintro ⟨i, j, hle, hto, hfrom⟩
        exact ⟨i + 1, j, by omega, .cons head hto, hfrom⟩
      · right
        apply ih.elim
        · intro hfrom
          exact ⟨0, n, by omega, .nil a, hfrom⟩
        · rintro ⟨i, j, hle, -, hfrom⟩
          exact ⟨0, j, by omega, .nil a, hfrom⟩

/-- The detour over the new edge. -/
theorem Walk.detour {p q : α} {i j : ℕ} (hto : Walk r i a p) (hfrom : Walk r j q b) :
    Walk (withEdge r p q) (i + 1 + j) a b := by
  have hkeep : ∀ x y, r x y → withEdge r p q x y := fun x y => Or.inl
  have hedge : withEdge r p q p q := Or.inr ⟨rfl, rfl⟩
  exact ((hto.mono hkeep).concat hedge).append (hfrom.mono hkeep)

/-- With one edge more, a least length is that of the old walks and of the detours. -/
theorem isLeast_withEdge {p q : α} {lo hi d : ℕ} (hlo : lo ≤ 1) :
    IsLeast {k | lo ≤ k ∧ k ≤ hi ∧ Walk (withEdge r p q) k a b} d ↔
      IsLeast {k | lo ≤ k ∧ k ≤ hi ∧
        (Walk r k a b ∨ ∃ i j, k = i + 1 + j ∧ Walk r i a p ∧ Walk r j q b)} d := by
  have hsub : ∀ k, Walk r k a b ∨ (∃ i j, k = i + 1 + j ∧ Walk r i a p ∧ Walk r j q b) →
      Walk (withEdge r p q) k a b := by
    rintro k (hwalk | ⟨i, j, rfl, hto, hfrom⟩)
    · exact hwalk.mono fun x y => Or.inl
    · exact hto.detour hfrom
  have hdom : ∀ k, lo ≤ k → k ≤ hi → Walk (withEdge r p q) k a b →
      ∃ k' ≤ k, lo ≤ k' ∧ k' ≤ hi ∧
        (Walk r k' a b ∨ ∃ i j, k' = i + 1 + j ∧ Walk r i a p ∧ Walk r j q b) := by
    intro k hge hle hwalk
    apply hwalk.split_edge.elim
    · exact fun hold => ⟨k, le_rfl, hge, hle, Or.inl hold⟩
    · rintro ⟨i, j, hshort, hto, hfrom⟩
      exact ⟨i + 1 + j, hshort, by omega, by omega, Or.inr ⟨i, j, rfl, hto, hfrom⟩⟩
  constructor
  · rintro ⟨⟨hge, hle, hwalk⟩, hleast⟩
    obtain ⟨k', hk', hge', hle', hnew⟩ := hdom d hge hle hwalk
    obtain rfl : k' = d := le_antisymm hk' (hleast ⟨hge', hle', hsub k' hnew⟩)
    refine ⟨⟨hge', hle', hnew⟩, ?_⟩
    rintro j ⟨hj, hj', hwalk'⟩
    exact hleast ⟨hj, hj', hsub j hwalk'⟩
  · rintro ⟨⟨hge, hle, hnew⟩, hleast⟩
    refine ⟨⟨hge, hle, hsub d hnew⟩, ?_⟩
    rintro j ⟨hj, hj', hwalk'⟩
    obtain ⟨k', hk', hrest⟩ := hdom j hj hj' hwalk'
    exact (hleast hrest).trans hk'

end Walk

/-- The rows of a recursive query: the working rows stand at `depth`, and `more` joins with
the edges follow. -/
def walkRows (next : α → List α) : ℕ → ℕ → List α → List (α × ℕ)
  | depth, 0, working => working.map fun a => (a, depth)
  | depth, more + 1, working =>
      working.map (fun a => (a, depth)) ++ walkRows next (depth + 1) more (working.flatMap next)

/-- The rows are the walks from the working rows, by their length. -/
theorem mem_walkRows {next : α → List α} {r : α → α → Prop} (hr : ∀ a b, b ∈ next a ↔ r a b)
    {depth more d : ℕ} {working : List α} {b : α} :
    (b, d) ∈ walkRows next depth more working ↔
      ∃ k ≤ more, d = depth + k ∧ ∃ a ∈ working, Walk r k a b := by
  induction more generalizing depth working with
  | zero =>
      simp only [walkRows, List.mem_map, Prod.mk.injEq]
      constructor
      · rintro ⟨a, ha, rfl, rfl⟩
        exact ⟨0, le_rfl, rfl, a, ha, .nil a⟩
      · rintro ⟨k, hk, rfl, a, ha, hwalk⟩
        obtain rfl := Nat.le_zero.mp hk
        cases hwalk
        exact ⟨b, ha, rfl, rfl⟩
  | succ more ih =>
      simp only [walkRows, List.mem_append, List.mem_map, Prod.mk.injEq, ih, List.mem_flatMap, hr]
      constructor
      · rintro (⟨a, ha, rfl, rfl⟩ | ⟨k, hk, rfl, c, ⟨a, ha, hac⟩, hwalk⟩)
        · exact ⟨0, Nat.zero_le _, rfl, a, ha, .nil a⟩
        · exact ⟨k + 1, Nat.succ_le_succ hk, by omega, a, ha, .cons hac hwalk⟩
      · rintro ⟨k, hk, rfl, a, ha, hwalk⟩
        cases hwalk with
        | nil => exact Or.inl ⟨b, ha, rfl, rfl⟩
        | @cons k _ c _ head tail =>
            exact Or.inr ⟨k, Nat.le_of_succ_le_succ hk, by omega, c, ⟨a, ha, head⟩, tail⟩

section GroupMin

variable [DecidableEq β] {rows : List (β × ℕ)} {b : β} {d : ℕ}

/-- `SELECT key, MIN(depth) ... GROUP BY key`. -/
def groupMin (rows : List (β × ℕ)) : List (β × ℕ) :=
  (rows.map Prod.fst).dedup.map fun b =>
    (b, ((rows.filter fun row => row.1 = b).map Prod.snd).min?.getD 0)

/-- Each key has one group. -/
theorem nodup_groupMin (rows : List (β × ℕ)) : ((groupMin rows).map Prod.fst).Nodup := by
  have hkeys : (groupMin rows).map Prod.fst = (rows.map Prod.fst).dedup := by
    rw [groupMin, List.map_map]
    exact List.map_id _
  rw [hkeys]
  exact List.nodup_dedup _

/-- A group stands at the least depth of its rows. -/
theorem mem_groupMin : (b, d) ∈ groupMin rows ↔ IsLeast {k | (b, k) ∈ rows} d := by
  have hdepths (k : ℕ) :
      k ∈ (rows.filter fun row => row.1 = b).map Prod.snd ↔ (b, k) ∈ rows := by
    simp only [List.mem_map, List.mem_filter, decide_eq_true_eq]
    constructor
    · rintro ⟨⟨b', k'⟩, ⟨hmem, rfl⟩, rfl⟩
      exact hmem
    · intro hmem
      exact ⟨(b, k), ⟨hmem, rfl⟩, rfl⟩
  have hleast (k : ℕ) : ((rows.filter fun row => row.1 = b).map Prod.snd).min? = some k ↔
      IsLeast {k | (b, k) ∈ rows} k := by
    rw [List.min?_eq_some_iff]
    exact and_congr (hdepths k) (forall_congr' fun j => imp_congr_left (hdepths j))
  simp only [groupMin, List.mem_map, List.mem_dedup, Prod.mk.injEq]
  constructor
  · rintro ⟨key, ⟨row, hrow, hkey⟩, hb, hd⟩
    subst hb
    have hmem := (hdepths row.2).mpr (hkey ▸ hrow)
    obtain ⟨m, hm⟩ : ∃ m, ((rows.filter fun row => row.1 = key).map Prod.snd).min? = some m := by
      rw [← Option.ne_none_iff_exists']
      exact mt List.min?_eq_none_iff.mp (List.ne_nil_of_mem hmem)
    rw [hm, Option.getD_some] at hd
    exact (hleast d).mp (hd ▸ hm)
  · intro h
    refine ⟨b, ⟨(b, d), h.1, rfl⟩, rfl, ?_⟩
    rw [(hleast d).mpr h, Option.getD_some]

end GroupMin

end ElectronixMes.Graph
