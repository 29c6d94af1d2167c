import Mathlib.Data.Finset.Card
import Mathlib.Data.Nat.Cast.Basic
import Mathlib.Algebra.Order.Ring.Int
import Mathlib.Algebra.Order.BigOperators.Group.List
import Mathlib.Data.Finset.Max

/-!
# Half-open spans of a timeline

A span `[lo, hi)` over a linear order, the two orders in which spans can lie
apart, the clamp to a window, and tilings: lists of non-empty spans in which
each one starts where the one before it ends. Over the integers a family of
spans that lie apart is measured by counting the instants it covers.
-/

namespace ElectronixMes.Timeline

/-- The half-open span `[lo, hi)`. It is empty when `hi ≤ lo`. -/
@[ext] structure Span (α : Type*) where
  lo : α
  hi : α
  deriving DecidableEq

namespace Span

variable {α : Type*} [LinearOrder α]

instance : Membership α (Span α) := ⟨fun s t => s.lo ≤ t ∧ t < s.hi⟩

theorem mem_def {s : Span α} {t : α} : t ∈ s ↔ s.lo ≤ t ∧ t < s.hi := Iff.rfl

instance (t : α) (s : Span α) : Decidable (t ∈ s) :=
  inferInstanceAs (Decidable (s.lo ≤ t ∧ t < s.hi))

/-- A span that contains an instant. -/
def Proper (s : Span α) : Prop := s.lo < s.hi

instance (s : Span α) : Decidable s.Proper := inferInstanceAs (Decidable (s.lo < s.hi))

/-- One of the spans ends before the other starts. -/
def Apart (s u : Span α) : Prop := s.hi ≤ u.lo ∨ u.hi ≤ s.lo

instance (s u : Span α) : Decidable (Apart s u) :=
  inferInstanceAs (Decidable (s.hi ≤ u.lo ∨ u.hi ≤ s.lo))

/-- The range predicate `lo < w.hi AND hi > w.lo`. -/
def Overlaps (s w : Span α) : Prop := s.lo < w.hi ∧ w.lo < s.hi

instance (s w : Span α) : Decidable (Overlaps s w) :=
  inferInstanceAs (Decidable (s.lo < w.hi ∧ w.lo < s.hi))

/-- The part of a span inside a window. -/
def clamp (s w : Span α) : Span α := ⟨max s.lo w.lo, min s.hi w.hi⟩

/-- The span between the images of the ends. -/
def map {β : Type*} (f : α → β) (s : Span α) : Span β := ⟨f s.lo, f s.hi⟩

theorem Apart.symm {s u : Span α} (h : Apart s u) : Apart u s := Or.symm h

instance {ι : Type*} (span : ι → Span α) : Std.Symm fun i j => Apart (span i) (span j) :=
  ⟨fun _ _ h => h.symm⟩

theorem not_overlaps_iff {s w : Span α} : ¬ Overlaps s w ↔ Apart s w := by
  unfold Overlaps Apart
  rw [not_and_or, not_lt, not_lt, or_comm]

/-- Spans that lie apart share no instant. -/
theorem Apart.notMem {s u : Span α} (h : Apart s u) {t : α} (hs : t ∈ s) : t ∉ u := by
  intro hu
  rcases h with h | h
  · exact absurd (hs.2.trans_le h) (not_lt.mpr hu.1)
  · exact absurd (hu.2.trans_le h) (not_lt.mpr hs.1)

/-- A window edge lies strictly inside the span. -/
def Straddles (s w : Span α) : Prop :=
  s.lo < w.lo ∧ w.lo < s.hi ∨ s.lo < w.hi ∧ w.hi < s.hi

instance (s w : Span α) : Decidable (Straddles s w) :=
  inferInstanceAs (Decidable (s.lo < w.lo ∧ w.lo < s.hi ∨ s.lo < w.hi ∧ w.hi < s.hi))

theorem Straddles.overlaps {s w : Span α} (hw : w.lo ≤ w.hi) (h : Straddles s w) :
    Overlaps s w := by
  rcases h with ⟨hlo, hhi⟩ | ⟨hlo, hhi⟩
  · exact ⟨hlo.trans_le hw, hhi⟩
  · exact ⟨hlo, hw.trans_lt hhi⟩

/-- An overlapping span that straddles no edge lies inside the window. -/
theorem Overlaps.within {s w : Span α} (h : Overlaps s w) (hs : ¬ Straddles s w) :
    w.lo ≤ s.lo ∧ s.hi ≤ w.hi := by
  constructor
  · by_contra hlt
    exact hs (Or.inl ⟨not_le.mp hlt, h.2⟩)
  · by_contra hlt
    exact hs (Or.inr ⟨h.1, not_le.mp hlt⟩)

/-- A straddling span contains an instant outside the window. -/
theorem Straddles.exists_outside {s w : Span α} (h : Straddles s w) :
    ∃ t ∈ s, t < w.lo ∨ w.hi ≤ t := by
  rcases h with ⟨hlo, hhi⟩ | ⟨hlo, hhi⟩
  · exact ⟨s.lo, ⟨le_rfl, hlo.trans hhi⟩, Or.inl hlo⟩
  · exact ⟨w.hi, ⟨hlo.le, hhi⟩, Or.inr le_rfl⟩

/-- Every span lies apart from a span included in one it lies apart from. -/
theorem Apart.mono_right {s u w : Span α} (h : Apart s w) (hlo : w.lo ≤ u.lo)
    (hhi : u.hi ≤ w.hi) : Apart s u :=
  h.imp (fun h => h.trans hlo) (fun h => hhi.trans h)

/-- The clamp of an overlapping span is not reversed. -/
theorem Overlaps.clamp_le {s w : Span α} (h : Overlaps s w) (hs : s.lo ≤ s.hi)
    (hw : w.lo ≤ w.hi) : (s.clamp w).lo ≤ (s.clamp w).hi :=
  max_le (le_min hs h.1.le) (le_min h.2.le hw)

/-- A monotone map keeps spans apart. -/
theorem Apart.map {β : Type*} [LinearOrder β] {f : α → β} (hf : Monotone f) {s u : Span α}
    (h : Apart s u) : Apart (s.map f) (u.map f) :=
  h.imp (fun h => hf h) (fun h => hf h)

theorem Apart.clamp {s u : Span α} (h : Apart s u) (w : Span α) :
    Apart (s.clamp w) (u.clamp w) :=
  h.imp (fun h => (min_le_left _ _).trans (h.trans (le_max_left _ _)))
    (fun h => (min_le_left _ _).trans (h.trans (le_max_left _ _)))

end Span

open Timeline.Span

section Tiling

variable {α ι : Type*} [LinearOrder α] (span : ι → Span α)

/-- The spans of the list are non-empty and run from `a` to `b` without a gap
or an overlap. -/
def Tiles : α → α → List ι → Prop
  | a, b, [] => a = b
  | a, b, i :: rest => (span i).lo = a ∧ a < (span i).hi ∧ Tiles (span i).hi b rest

variable {span}

@[simp] theorem tiles_nil {a b : α} : Tiles span a b [] ↔ a = b := Iff.rfl

@[simp] theorem tiles_cons {a b : α} {i : ι} {rest : List ι} :
    Tiles span a b (i :: rest) ↔
      (span i).lo = a ∧ a < (span i).hi ∧ Tiles span (span i).hi b rest := Iff.rfl

theorem Tiles.le {a b : α} {l : List ι} (h : Tiles span a b l) : a ≤ b := by
  induction l generalizing a with
  | nil => exact le_of_eq h
  | cons i rest ih => exact h.2.1.le.trans (ih h.2.2)

theorem Tiles.append {a b c : α} {l m : List ι} (hl : Tiles span a b l)
    (hm : Tiles span b c m) : Tiles span a c (l ++ m) := by
  induction l generalizing a with
  | nil => exact (show a = b from hl) ▸ hm
  | cons i rest ih => exact ⟨hl.1, hl.2.1, ih hl.2.2⟩

theorem tiles_singleton {a b : α} {i : ι} :
    Tiles span a b [i] ↔ (span i).lo = a ∧ (span i).hi = b ∧ a < b := by
  simp only [tiles_cons, tiles_nil]
  constructor
  · rintro ⟨hlo, hlt, rfl⟩
    exact ⟨hlo, rfl, hlt⟩
  · rintro ⟨hlo, rfl, hlt⟩
    exact ⟨hlo, hlt, rfl⟩

/-- A tiling is cut at any of its elements. -/
theorem Tiles.of_append {a c : α} {l m : List ι} (h : Tiles span a c (l ++ m)) :
    ∃ b, Tiles span a b l ∧ Tiles span b c m := by
  induction l generalizing a with
  | nil => exact ⟨a, rfl, h⟩
  | cons i rest ih =>
      obtain ⟨b, hl, hm⟩ := ih h.2.2
      exact ⟨b, ⟨h.1, h.2.1, hl⟩, hm⟩

theorem Tiles.bounds {a b : α} {l : List ι} (h : Tiles span a b l) {i : ι} (hi : i ∈ l) :
    a ≤ (span i).lo ∧ (span i).Proper ∧ (span i).hi ≤ b := by
  induction l generalizing a with
  | nil => cases hi
  | cons j rest ih =>
      obtain ⟨hlo, hlt, hrest⟩ := h
      rcases List.mem_cons.mp hi with rfl | hi
      · exact ⟨hlo.ge, hlo.trans_lt hlt, hrest.le⟩
      · obtain ⟨hle, hp, hhi⟩ := ih hrest hi
        exact ⟨hlt.le.trans hle, hp, hhi⟩

/-- Every point between the ends lies in one of the tiles. -/
theorem Tiles.exists_mem {a b t : α} {l : List ι} (h : Tiles span a b l) (hlo : a ≤ t)
    (hhi : t < b) : ∃ i ∈ l, t ∈ span i := by
  induction l generalizing a with
  | nil => exact absurd hhi (not_lt.mpr ((le_of_eq (show a = b from h).symm).trans hlo))
  | cons i rest ih =>
      obtain ⟨hstart, hlt, hrest⟩ := h
      rcases lt_or_ge t (span i).hi with hin | hout
      · exact ⟨i, List.mem_cons_self, hstart.le.trans hlo, hin⟩
      · obtain ⟨j, hj, hmem⟩ := ih hrest hout
        exact ⟨j, List.mem_cons_of_mem _ hj, hmem⟩

/-- The images of the tiles leave no point between the images of the ends out. -/
theorem Tiles.exists_mem_map {β : Type*} [LinearOrder β] (f : α → β) {a b : α} {t : β}
    {l : List ι} (h : Tiles span a b l) (hlo : f a ≤ t) (hhi : t < f b) :
    ∃ i ∈ l, t ∈ (span i).map f := by
  induction l generalizing a with
  | nil => exact absurd (hhi.trans_le ((congrArg f (show a = b from h)).ge.trans hlo)) (lt_irrefl t)
  | cons i rest ih =>
      obtain ⟨hstart, -, hrest⟩ := h
      rcases lt_or_ge t (f (span i).hi) with hin | hout
      · exact ⟨i, List.mem_cons_self, (congrArg f hstart).le.trans hlo, hin⟩
      · obtain ⟨j, hj, hmem⟩ := ih hrest hout
        exact ⟨j, List.mem_cons_of_mem _ hj, hmem⟩

/-- A tile starts where the tiling does or where another one ends. -/
theorem Tiles.start_cases {a b : α} {l : List ι} (h : Tiles span a b l) {j : ι} (hj : j ∈ l) :
    (span j).lo = a ∨ ∃ i ∈ l, (span i).hi = (span j).lo := by
  induction l generalizing a with
  | nil => cases hj
  | cons i rest ih =>
      obtain ⟨hlo, -, hrest⟩ := h
      rcases List.mem_cons.mp hj with rfl | hj
      · exact Or.inl hlo
      · rcases ih hrest hj with heq | ⟨k, hk, heq⟩
        · exact Or.inr ⟨i, List.mem_cons_self, heq.symm⟩
        · exact Or.inr ⟨k, List.mem_cons_of_mem i hk, heq⟩

/-- A tile ends where the tiling does or where another one starts. -/
theorem Tiles.end_cases {a b : α} {l : List ι} (h : Tiles span a b l) {i : ι} (hi : i ∈ l) :
    (span i).hi = b ∨ ∃ j ∈ l, (span i).hi = (span j).lo := by
  induction l generalizing a with
  | nil => cases hi
  | cons k rest ih =>
      obtain ⟨-, -, hrest⟩ := h
      rcases List.mem_cons.mp hi with rfl | hi
      · cases rest with
        | nil => exact Or.inl hrest
        | cons j rest => exact Or.inr ⟨j, by simp, hrest.1.symm⟩
      · rcases ih hrest hi with heq | ⟨j, hj, heq⟩
        · exact Or.inl heq
        · exact Or.inr ⟨j, List.mem_cons_of_mem k hj, heq⟩

theorem Tiles.pairwise_apart {a b : α} {l : List ι} (h : Tiles span a b l) :
    l.Pairwise fun i j => Apart (span i) (span j) := by
  induction l generalizing a with
  | nil => exact List.Pairwise.nil
  | cons i rest ih =>
      refine List.Pairwise.cons ?_ (ih h.2.2)
      intro j hj
      exact Or.inl (h.2.2.bounds hj).1

end Tiling

section Gap

variable {α : Type*} [LinearOrder α] {points : List α} {a b a' b' t last p : α}

/-- Two successive points: none of the list lies between them. -/
structure Gap (points : List α) (a b : α) : Prop where
  left : a ∈ points
  right : b ∈ points
  lt : a < b
  between : ∀ p ∈ points, p ≤ a ∨ b ≤ p

/-- The last point that is not after `t`, and the first one after it. -/
structure Surrounds (points : List α) (t a b : α) : Prop where
  last : IsGreatest {p | p ∈ points ∧ p ≤ t} a
  first : IsLeast {p | p ∈ points ∧ t < p} b

theorem Surrounds.gap (h : Surrounds points t a b) : Gap points a b where
  left := h.last.1.1
  right := h.first.1.1
  lt := h.last.1.2.trans_lt h.first.1.2
  between := by
    intro p hp
    rcases le_or_gt p t with hle | hlt
    · exact Or.inl (h.last.2 ⟨hp, hle⟩)
    · exact Or.inr (h.first.2 ⟨hp, hlt⟩)

theorem Surrounds.mem (h : Surrounds points t a b) : t ∈ (⟨a, b⟩ : Span α) :=
  ⟨h.last.1.2, h.first.1.2⟩

theorem Gap.surrounds (h : Gap points a b) (ht : t ∈ (⟨a, b⟩ : Span α)) :
    Surrounds points t a b where
  last := by
    refine ⟨⟨h.left, ht.1⟩, ?_⟩
    rintro p ⟨hp, hle⟩
    rcases h.between p hp with hpa | hbp
    · exact hpa
    · exact absurd (ht.2.trans_le hbp) (not_lt.mpr hle)
  first := by
    refine ⟨⟨h.right, ht.2⟩, ?_⟩
    rintro p ⟨hp, hlt⟩
    rcases h.between p hp with hpa | hbp
    · exact absurd (hpa.trans ht.1) (not_le.mpr hlt)
    · exact hbp

theorem Surrounds.unique (h : Surrounds points t a b) (h' : Surrounds points t a' b') :
    a = a' ∧ b = b' :=
  ⟨h.last.unique h'.last, h.first.unique h'.first⟩

/-- An instant between two points is surrounded. -/
theorem exists_surrounds {lo hi : α} (hlo : lo ∈ points) (hhi : hi ∈ points)
    (ht : t ∈ (⟨lo, hi⟩ : Span α)) : ∃ a b, Surrounds points t a b := by
  have hbefore : (points.toFinset.filter (· ≤ t)).Nonempty := ⟨lo, by simp [hlo, ht.1]⟩
  have hafter : (points.toFinset.filter (t < ·)).Nonempty := ⟨hi, by simp [hhi, ht.2]⟩
  have hlast := Finset.isGreatest_max' _ hbefore
  have hfirst := Finset.isLeast_min' _ hafter
  simp only [Finset.coe_filter, List.mem_toFinset] at hlast hfirst
  exact ⟨_, _, hlast, hfirst⟩

/-- A point behind all others ends one more gap. -/
theorem gap_concat (hle : ∀ q ∈ points, q ≤ last) (hlast : last ∈ points) (hp : last ≤ p) :
    Gap (points ++ [p]) a b ↔ Gap points a b ∨ a = last ∧ b = p ∧ a < b := by
  have hmem {q : α} : q ∈ points ++ [p] ↔ q ∈ points ∨ q = p := by simp
  constructor
  · intro h
    have ha : a ∈ points := by
      rcases hmem.mp h.left with ha | rfl
      · exact ha
      · have hb : b ≤ a := by
          rcases hmem.mp h.right with hb | rfl
          · exact (hle b hb).trans hp
          · exact le_rfl
        exact absurd h.lt (not_lt.mpr hb)
    rcases hmem.mp h.right with hb | rfl
    · exact Or.inl ⟨ha, hb, h.lt, fun q hq => h.between q (hmem.mpr (Or.inl hq))⟩
    · rcases h.between last (hmem.mpr (Or.inl hlast)) with hla | hbl
      · exact Or.inr ⟨le_antisymm (hle a ha) hla, rfl, h.lt⟩
      · -- the point repeats the last one
        obtain rfl : b = last := le_antisymm hbl hp
        exact Or.inl ⟨ha, hlast, h.lt, fun q hq => h.between q (hmem.mpr (Or.inl hq))⟩
  · rintro (h | ⟨rfl, rfl, hlt⟩)
    · refine ⟨hmem.mpr (Or.inl h.left), hmem.mpr (Or.inl h.right), h.lt, ?_⟩
      intro q hq
      rcases hmem.mp hq with hq | rfl
      · exact h.between q hq
      · exact Or.inr ((hle b h.right).trans hp)
    · refine ⟨hmem.mpr (Or.inl hlast), hmem.mpr (Or.inr rfl), hlt, ?_⟩
      intro q hq
      rcases hmem.mp hq with hq | rfl
      · exact Or.inl (hle q hq)
      · exact Or.inr le_rfl

end Gap

section Measure

/-- The instant before one that is not the first of a span. -/
theorem Span.pred_mem {s : Span ℤ} {t : ℤ} (hlo : s.lo < t) (hhi : t ≤ s.hi) : t - 1 ∈ s :=
  ⟨Int.le_sub_one_of_lt hlo, Int.sub_one_lt_of_le hhi⟩

/-- The number of instants of an integer span, negative when it is reversed. -/
def Span.length (s : Span ℤ) : ℤ := s.hi - s.lo

/-- The instants of an integer span. -/
def Span.instants (s : Span ℤ) : Finset ℤ :=
  (Finset.range (s.hi - s.lo).toNat).image fun i : ℕ => s.lo + i

theorem Span.mem_instants {s : Span ℤ} {t : ℤ} : t ∈ s.instants ↔ t ∈ s := by
  simp only [Span.instants, Finset.mem_image, Finset.mem_range, Span.mem_def]
  constructor
  · rintro ⟨i, hi, rfl⟩
    omega
  · rintro ⟨hlo, hhi⟩
    exact ⟨(t - s.lo).toNat, by omega, by omega⟩

theorem Span.card_instants {s : Span ℤ} (hs : s.lo ≤ s.hi) :
    (s.instants.card : ℤ) = s.length := by
  have hinj : Function.Injective fun i : ℕ => s.lo + (i : ℤ) := by
    intro i j h
    have heq : s.lo + (i : ℤ) = s.lo + (j : ℤ) := h
    omega
  rw [Span.instants, Finset.card_image_of_injective _ hinj, Finset.card_range,
    Int.toNat_of_nonneg (sub_nonneg.mpr hs), Span.length]

/-- The part of a span outside a window is what the clamp leaves of its length. -/
theorem Span.card_sdiff {s : Span ℤ} (hs : s.lo ≤ s.hi) (w : Span ℤ) :
    ((s.instants \ w.instants).card : ℤ) = s.length - max 0 (s.clamp w).length := by
  have hcut : s.instants ∩ w.instants = (s.clamp w).instants := by
    ext t
    simp only [Finset.mem_inter, Span.mem_instants, Span.mem_def, Span.clamp]
    omega
  have hcard : ((s.clamp w).instants.card : ℤ) = max 0 (s.clamp w).length := by
    rcases le_or_gt (s.clamp w).lo (s.clamp w).hi with hle | hgt
    · have hlength : 0 ≤ (s.clamp w).length := sub_nonneg.mpr hle
      rw [Span.card_instants hle, max_eq_right hlength]
    · have hempty : (s.clamp w).instants = ∅ := by
        apply Finset.eq_empty_of_forall_notMem
        intro t ht
        have hmem := Span.mem_instants.mp ht
        exact absurd (hmem.1.trans_lt hmem.2) (not_lt.mpr hgt.le)
      have hlength : (s.clamp w).length ≤ 0 := sub_nonpos.mpr hgt.le
      rw [hempty, max_eq_left hlength]
      rfl
  have hsplit := Finset.card_sdiff_add_card_inter s.instants w.instants
  rw [hcut] at hsplit
  have hlen := Span.card_instants hs
  omega

/-- The instants that some span of the list contains. -/
def covered (l : List (Span ℤ)) : Finset ℤ := l.foldr (fun s acc => s.instants ∪ acc) ∅

@[simp] theorem covered_nil : covered [] = ∅ := rfl

@[simp] theorem covered_cons (s : Span ℤ) (l : List (Span ℤ)) :
    covered (s :: l) = s.instants ∪ covered l := rfl

theorem mem_covered {l : List (Span ℤ)} {t : ℤ} : t ∈ covered l ↔ ∃ s ∈ l, t ∈ s := by
  induction l with
  | nil => simp
  | cons s l ih => simp [ih, Span.mem_instants]

/-- Spans that lie apart are measured without counting an instant twice. -/
theorem sum_card_sdiff {l : List (Span ℤ)} (ha : l.Pairwise Apart) (out : Finset ℤ) :
    (l.map fun s => ((s.instants \ out).card : ℤ)).sum = ((covered l \ out).card : ℤ) := by
  induction l with
  | nil => simp
  | cons s l ih =>
      obtain ⟨hs, hl⟩ := List.pairwise_cons.mp ha
      have hdisj : Disjoint (s.instants \ out) (covered l \ out) := by
        apply Disjoint.mono Finset.sdiff_subset Finset.sdiff_subset
        rw [Finset.disjoint_left]
        intro t ht hc
        obtain ⟨u, hu, htu⟩ := mem_covered.mp hc
        exact (hs u hu).notMem (Span.mem_instants.mp ht) htu
      rw [List.map_cons, List.sum_cons, covered_cons, Finset.union_sdiff_distrib,
        Finset.card_union_of_disjoint hdisj, Nat.cast_add, ih hl]

theorem sum_length_eq_card {l : List (Span ℤ)} (hp : ∀ s ∈ l, s.lo ≤ s.hi)
    (ha : l.Pairwise Apart) : (l.map Span.length).sum = ((covered l).card : ℤ) := by
  have hlength : l.map Span.length = l.map fun s => ((s.instants \ ∅).card : ℤ) := by
    apply List.map_congr_left
    intro s hs
    rw [Finset.sdiff_empty, Span.card_instants (hp s hs)]
  rw [hlength, sum_card_sdiff ha, Finset.sdiff_empty]

/-- Spans that lie apart inside a window are together no longer than it. -/
theorem sum_length_le {l : List (Span ℤ)} {w : Span ℤ} (hp : ∀ s ∈ l, s.lo ≤ s.hi)
    (ha : l.Pairwise Apart) (hw : ∀ s ∈ l, w.lo ≤ s.lo ∧ s.hi ≤ w.hi) (hwp : w.lo ≤ w.hi) :
    (l.map Span.length).sum ≤ w.length := by
  have hsub : covered l ⊆ w.instants := by
    intro t ht
    obtain ⟨s, hs, hlo, hhi⟩ := mem_covered.mp ht
    exact Span.mem_instants.mpr ⟨(hw s hs).1.trans hlo, hhi.trans_le (hw s hs).2⟩
  calc (l.map Span.length).sum = ((covered l).card : ℤ) := sum_length_eq_card hp ha
    _ ≤ (w.instants.card : ℤ) := Int.ofNat_le.mpr (Finset.card_le_card hsub)
    _ = w.length := Span.card_instants hwp

end Measure

end ElectronixMes.Timeline
