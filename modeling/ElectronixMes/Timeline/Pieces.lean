import ElectronixMes.Timeline.Span
import Mathlib.Data.Set.Pairwise.Basic

/-!
# Spans divided into pieces

A set of non-empty pieces that lie apart and cover a span exactly. A piece can
be cut in two at a point inside it. A cut made at an old, later end of a piece
that others have shortened covers the instant at its new end twice.
-/

namespace ElectronixMes.Timeline

open Timeline.Span

variable {α ι : Type*} [LinearOrder α]

/-- The pieces are non-empty, lie apart, and contain the instants from `a` to `b`. -/
structure Divides (span : ι → Span α) (a b : α) (pieces : Set ι) : Prop where
  proper : ∀ i ∈ pieces, (span i).Proper
  apart : ∀ i ∈ pieces, ∀ j ∈ pieces, i ≠ j → Apart (span i) (span j)
  covers : ∀ t, (∃ i ∈ pieces, t ∈ span i) ↔ a ≤ t ∧ t < b

variable {span : ι → Span α} {a b c m : α} {pieces pieces' : Set ι} {i j k : ι}

theorem divides_singleton (h : (span i).Proper) :
    Divides span (span i).lo (span i).hi {i} where
  proper := by
    rintro j rfl
    exact h
  apart := by
    rintro j rfl k rfl hne
    exact absurd rfl hne
  covers := by
    intro t
    constructor
    · rintro ⟨j, rfl, ht⟩
      exact ht
    · intro ht
      exact ⟨i, rfl, ht⟩

/-- Two pieces that share an instant are one piece. -/
theorem Divides.eq_of_mem (h : Divides span a b pieces) (hi : i ∈ pieces) (hj : j ∈ pieces)
    {t : α} (hti : t ∈ span i) (htj : t ∈ span j) : i = j := by
  by_contra hne
  exact (h.apart i hi j hj hne).notMem hti htj

theorem Divides.bounds (h : Divides span a b pieces) (hi : i ∈ pieces) :
    a ≤ (span i).lo ∧ (span i).hi ≤ b := by
  have hproper : (span i).Proper := h.proper i hi
  refine ⟨((h.covers (span i).lo).mp ⟨i, hi, le_rfl, hproper⟩).1, ?_⟩
  by_contra hlt
  have hmem : max (span i).lo b ∈ span i := ⟨le_max_left _ _, max_lt hproper (not_le.mp hlt)⟩
  exact absurd ((h.covers _).mp ⟨i, hi, hmem⟩).2 (not_lt.mpr (le_max_right _ _))

/-- A piece is replaced by two that meet at a point inside it. -/
structure CutAt (span : ι → Span α) (pieces pieces' : Set ι) (i j k : ι) (m c : α) : Prop where
  mem : i ∈ pieces
  mem' : ∀ x, x ∈ pieces' ↔ x = j ∨ x = k ∨ x ∈ pieces ∧ x ≠ i
  first : span j = ⟨(span i).lo, m⟩
  second : span k = ⟨m, c⟩
  lo : (span i).lo < m
  hi : m < c

/-- The two new pieces cover what the old one has covered. -/
theorem CutAt.covers (hcut : CutAt span pieces pieces' i j k m (span i).hi) (t : α) :
    (∃ x ∈ pieces', t ∈ span x) ↔ ∃ x ∈ pieces, t ∈ span x := by
  constructor
  · rintro ⟨x, hx, ht⟩
    rcases (hcut.mem' x).mp hx with rfl | rfl | ⟨hx, -⟩
    · rw [hcut.first] at ht
      exact ⟨i, hcut.mem, ht.1, ht.2.trans hcut.hi⟩
    · rw [hcut.second] at ht
      exact ⟨i, hcut.mem, hcut.lo.le.trans ht.1, ht.2⟩
    · exact ⟨x, hx, ht⟩
  · rintro ⟨x, hx, ht⟩
    by_cases hxi : x = i
    · subst hxi
      rcases lt_or_ge t m with hbefore | hafter
      · refine ⟨j, (hcut.mem' j).mpr (Or.inl rfl), ?_⟩
        rw [hcut.first]
        exact ⟨ht.1, hbefore⟩
      · refine ⟨k, (hcut.mem' k).mpr (Or.inr (Or.inl rfl)), ?_⟩
        rw [hcut.second]
        exact ⟨hafter, ht.2⟩
    · exact ⟨x, (hcut.mem' x).mpr (Or.inr (Or.inr ⟨hx, hxi⟩)), ht⟩

theorem Divides.cut (h : Divides span a b pieces)
    (hcut : CutAt span pieces pieces' i j k m (span i).hi) : Divides span a b pieces' := by
  have hfirst : ∀ x ∈ pieces, x ≠ i → Apart (span x) (span j) := by
    intro x hx hne
    rw [hcut.first]
    exact (h.apart x hx i hcut.mem hne).mono_right le_rfl hcut.hi.le
  have hsecond : ∀ x ∈ pieces, x ≠ i → Apart (span x) (span k) := by
    intro x hx hne
    rw [hcut.second]
    exact (h.apart x hx i hcut.mem hne).mono_right hcut.lo.le le_rfl
  have hhalves : Apart (span j) (span k) := by
    rw [hcut.first, hcut.second]
    exact Or.inl le_rfl
  constructor
  · intro x hx
    rcases (hcut.mem' x).mp hx with rfl | rfl | ⟨hx, -⟩
    · rw [hcut.first]
      exact hcut.lo
    · rw [hcut.second]
      exact hcut.hi
    · exact h.proper x hx
  · intro x hx y hy hne
    rcases (hcut.mem' x).mp hx with rfl | rfl | ⟨hx, hxi⟩ <;>
    rcases (hcut.mem' y).mp hy with rfl | rfl | ⟨hy, hyi⟩
    · exact absurd rfl hne
    · exact hhalves
    · exact (hfirst y hy hyi).symm
    · exact hhalves.symm
    · exact absurd rfl hne
    · exact (hsecond y hy hyi).symm
    · exact hfirst x hx hxi
    · exact hsecond x hx hxi
    · exact h.apart x hx y hy hne
  · intro t
    rw [hcut.covers, h.covers]

/-- After a cut that reaches beyond the end of its piece the instant at that end lies in two
pieces. -/
theorem Divides.not_cut_beyond (h : Divides span a b pieces)
    (hcut : CutAt span pieces pieces' i j k m c) (hj : j ∉ pieces ∨ j = i) (hk : k ∉ pieces)
    (hc : (span i).hi < c) (hcb : c ≤ b) : ¬ Divides span a b pieces' := by
  intro h'
  obtain ⟨hi, hmem, hspanj, hspank, hlo, hhi⟩ := hcut
  have hproper : (span i).Proper := h.proper i hi
  have ha : a ≤ (span i).lo := (h.bounds hi).1
  obtain ⟨q, hq, htq⟩ := (h.covers (span i).hi).mpr ⟨ha.trans hproper.le, hc.trans_le hcb⟩
  have hqi : q ≠ i := by
    rintro rfl
    exact lt_irrefl _ htq.2
  have hq' : q ∈ pieces' := (hmem q).mpr (Or.inr (Or.inr ⟨hq, hqi⟩))
  rcases lt_or_ge (span i).hi m with hbefore | hafter
  · -- the first half has grown over the end
    have htj : (span i).hi ∈ span j := by
      rw [hspanj]
      exact ⟨hproper.le, hbefore⟩
    have hqj := h'.eq_of_mem hq' ((hmem j).mpr (Or.inl rfl)) htq htj
    rcases hj with hj | hj
    · exact hj (hqj ▸ hq)
    · exact hqi (hqj.trans hj)
  · have htk : (span i).hi ∈ span k := by
      rw [hspank]
      exact ⟨hafter, hc⟩
    have hqk := h'.eq_of_mem hq' ((hmem k).mpr (Or.inr (Or.inl rfl))) htq htk
    exact hk (hqk ▸ hq)

end ElectronixMes.Timeline
