import ElectronixMes.Relational.Table
import Mathlib.Data.List.Sort

/-!
# The first row of an ordered query

A query that sorts its rows and takes one returns a row that comes before every other one.
Where several rows do, the order in which the rows are read decides between them.
-/

namespace ElectronixMes.Relational

variable {ρ : Type*} {r : ρ → ρ → Prop} [DecidableRel r] {p : ρ → Bool} {rows : List ρ} {a b : ρ}

theorem first_mem (h : ((rows.filter p).insertionSort r).head? = some a) :
    a ∈ rows ∧ p a = true :=
  List.mem_filter.mp ((List.mem_insertionSort r).mp (List.mem_of_mem_head? h))

theorem first_eq_none :
    ((rows.filter p).insertionSort r).head? = none ↔ ∀ b ∈ rows, ¬ p b = true := by
  rw [List.head?_eq_none_iff, List.eq_nil_iff_forall_not_mem]
  simp only [List.mem_insertionSort, List.mem_filter, not_and]

/-- The first row comes before every row of the query. -/
theorem first_le [Std.Total r] [IsTrans ρ r]
    (h : ((rows.filter p).insertionSort r).head? = some a) (hb : b ∈ rows) (hp : p b = true) :
    r a b := by
  obtain ⟨rest, hrest⟩ := List.head?_eq_some_iff.mp h
  have hsorted := List.pairwise_insertionSort r (rows.filter p)
  have hmem : b ∈ (rows.filter p).insertionSort r :=
    (List.mem_insertionSort r).mpr (List.mem_filter.mpr ⟨hb, hp⟩)
  rw [hrest] at hsorted hmem
  rcases List.mem_cons.mp hmem with rfl | hlater
  · exact (Std.Total.total b b).elim id id
  · exact (List.pairwise_cons.mp hsorted).1 b hlater

/-- A row that is read before the others and comes before them is the first one. -/
theorem first_cons (hp : p a = true) (hle : ∀ b ∈ rows, p b = true → r a b) :
    (((a :: rows).filter p).insertionSort r).head? = some a := by
  rw [List.filter_cons_of_pos hp, List.insertionSort_cons]
  cases hrest : (rows.filter p).insertionSort r with
  | nil => rfl
  | cons b rest =>
      have hb : b ∈ (rows.filter p).insertionSort r := hrest ▸ List.mem_cons_self
      obtain ⟨hmem, hpb⟩ := List.mem_filter.mp ((List.mem_insertionSort r).mp hb)
      rw [List.orderedInsert_cons, if_pos (hle b hmem hpb)]
      rfl

/-- The rows that a query may return, over every order in which the rows are read. -/
theorem exists_perm_first [DecidableEq ρ] [Std.Total r] [IsTrans ρ r] :
    (∃ rows' : List ρ, rows'.Perm rows ∧ ((rows'.filter p).insertionSort r).head? = some a) ↔
      a ∈ rows ∧ p a = true ∧ ∀ b ∈ rows, p b = true → r a b := by
  constructor
  · rintro ⟨rows', hperm, hfirst⟩
    obtain ⟨hmem, hp⟩ := first_mem hfirst
    exact ⟨hperm.mem_iff.mp hmem, hp, fun b hb => first_le hfirst (hperm.mem_iff.mpr hb)⟩
  · rintro ⟨hmem, hp, hle⟩
    refine ⟨a :: rows.erase a, (List.perm_cons_erase hmem).symm, first_cons hp ?_⟩
    exact fun b hb => hle b (List.mem_of_mem_erase hb)

namespace Table

variable {κ : Type*} [Keyed ρ κ]

/-- The rows of a table in another order. -/
def reorder (t : Table ρ) (rows : List ρ) (h : rows.Perm t.rows) : Table ρ where
  rows := rows
  unique := ((h.map Keyed.key).nodup_iff).mpr t.unique

@[simp] theorem mem_reorder {t : Table ρ} {rows : List ρ} (h : rows.Perm t.rows) :
    a ∈ t.reorder rows h ↔ a ∈ t := h.mem_iff

theorem lookup_reorder [DecidableEq κ] {t : Table ρ} {rows : List ρ} (h : rows.Perm t.rows)
    (k : κ) : (t.reorder rows h).lookup k = t.lookup k := by
  refine Option.ext fun b => ?_
  rw [lookup_eq_some, lookup_eq_some, mem_reorder]

end Table

end ElectronixMes.Relational
