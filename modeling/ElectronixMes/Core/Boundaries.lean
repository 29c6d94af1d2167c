import ElectronixMes.Core.Overlay

/-!
# Splitting a timeline at boundaries

An interval is cut at every boundary inside it, so nothing straddles a boundary and every
instant keeps its state. A boundary that is listed twice cuts twice: between the two cuts
stands an empty interval, and the result is no timeline any more.
-/

namespace ElectronixMes.Core

open ElectronixMes.Timeline

/-- The pieces of `[cursor, finish)` cut at the instants of a list. -/
def pieces (s : MachineState) (finish : Int) : Int → List Int → List StateInterval
  | cursor, [] => [⟨s, cursor, finish⟩]
  | cursor, b :: rest => ⟨s, cursor, b⟩ :: pieces s finish b rest

/-- The split refines the timeline: it tiles the same span, every instant keeps its state, no
interval has a boundary strictly inside, and splitting again changes nothing. -/
structure Refines (a b : Int) (intervals : List StateInterval) (boundaries : List Int)
    (out : List StateInterval) : Prop where
  tiled : Timeline a b out
  states : ∀ t ∈ (⟨a, b⟩ : Span Int), stateOf out t = stateOf intervals t
  within : ∀ o ∈ out, ∀ x ∈ boundaries, ¬ (o.start < x ∧ x < o.finish)
  again : splitAtBoundaries out boundaries = out

section Pieces

variable {s : MachineState} {finish cursor : Int} {inner boundaries : List Int}
  {iv : StateInterval} {out : List StateInterval}

theorem mem_innerBoundaries {x : Int} :
    x ∈ innerBoundaries boundaries iv ↔ x ∈ boundaries ∧ iv.start < x ∧ x < iv.finish := by
  unfold innerBoundaries
  rw [List.mem_insertionSort, List.mem_filter, decide_eq_true_iff]

theorem innerBoundaries_sorted (boundaries : List Int) (iv : StateInterval) :
    (innerBoundaries boundaries iv).Pairwise (· ≤ ·) :=
  List.pairwise_insertionSort _ _

/-- A boundary inside an interval stands among its cuts as often as it is listed. -/
theorem count_innerBoundaries {x : Int} (hlo : iv.start < x) (hhi : x < iv.finish) :
    (innerBoundaries boundaries iv).count x = boundaries.count x := by
  unfold innerBoundaries
  rw [(List.perm_insertionSort _ _).count_eq, List.count_filter]
  exact decide_eq_true ⟨hlo, hhi⟩

theorem foldl_splitStep (iv : StateInterval) (inner : List Int) (out : List StateInterval)
    (cursor : Int) :
    (inner.foldl (splitStep iv) (out, cursor)).1 ++
        [⟨iv.state, (inner.foldl (splitStep iv) (out, cursor)).2, iv.finish⟩] =
      out ++ pieces iv.state iv.finish cursor inner := by
  induction inner generalizing out cursor with
  | nil => rfl
  | cons b rest ih =>
      rw [List.foldl_cons, splitStep, ih, pieces, List.append_assoc]
      rfl

/-- The split of a list is the pieces of one interval after the other. -/
theorem splitAtBoundaries_eq (intervals : List StateInterval) (boundaries : List Int) :
    splitAtBoundaries intervals boundaries =
      intervals.flatMap fun iv =>
        pieces iv.state iv.finish iv.start (innerBoundaries boundaries iv) := by
  have hgen (out : List StateInterval) :
      intervals.foldl (splitInterval boundaries) out =
        out ++ intervals.flatMap fun iv =>
          pieces iv.state iv.finish iv.start (innerBoundaries boundaries iv) := by
    induction intervals generalizing out with
    | nil => simp
    | cons iv rest ih =>
        rw [List.foldl_cons, ih, splitInterval, foldl_splitStep, List.flatMap_cons,
          List.append_assoc]
  exact hgen []

theorem mem_splitAtBoundaries {intervals : List StateInterval} {o : StateInterval} :
    o ∈ splitAtBoundaries intervals boundaries ↔
      ∃ iv ∈ intervals,
        o ∈ pieces iv.state iv.finish iv.start (innerBoundaries boundaries iv) := by
  rw [splitAtBoundaries_eq, List.mem_flatMap]

/-- The pieces lie one behind the other, with no cut inside any. -/
theorem mem_pieces {o : StateInterval} (ho : o ∈ pieces s finish cursor inner)
    (hsorted : inner.Pairwise (· ≤ ·)) (hlo : ∀ x ∈ inner, cursor ≤ x)
    (hhi : ∀ x ∈ inner, x ≤ finish) (hcursor : cursor ≤ finish) :
    o.state = s ∧ cursor ≤ o.start ∧ o.finish ≤ finish ∧
      ∀ x ∈ inner, ¬ (o.start < x ∧ x < o.finish) := by
  induction inner generalizing cursor with
  | nil =>
      obtain rfl := List.mem_singleton.mp ho
      exact ⟨rfl, le_rfl, le_rfl, fun x hx => absurd hx List.not_mem_nil⟩
  | cons b rest ih =>
      obtain ⟨hle, hrest⟩ := List.pairwise_cons.mp hsorted
      have hb : cursor ≤ b := hlo b List.mem_cons_self
      rcases List.mem_cons.mp ho with rfl | ho
      · refine ⟨rfl, le_rfl, hhi b List.mem_cons_self, ?_⟩
        intro x hx hinside
        rcases List.mem_cons.mp hx with rfl | hx
        · exact lt_irrefl _ hinside.2
        · exact absurd hinside.2 (not_lt.mpr (hle x hx))
      · obtain ⟨hstate, hstart, hfin, hwithin⟩ := ih ho hrest hle
          (fun x hx => hhi x (List.mem_cons_of_mem b hx)) (hhi b List.mem_cons_self)
        refine ⟨hstate, hb.trans hstart, hfin, ?_⟩
        intro x hx hinside
        rcases List.mem_cons.mp hx with rfl | hx
        · exact absurd hinside.1 (not_lt.mpr hstart)
        · exact hwithin x hx hinside

/-- Cut at increasing instants inside it, an interval falls into a timeline of its own. -/
theorem pieces_timeline (hsorted : inner.Pairwise (· < ·)) (hlo : ∀ x ∈ inner, cursor < x)
    (hhi : ∀ x ∈ inner, x < finish) (hcursor : cursor < finish) :
    Timeline cursor finish (pieces s finish cursor inner) := by
  induction inner generalizing cursor with
  | nil => exact timeline_singleton hcursor
  | cons b rest ih =>
      obtain ⟨hlt, hrest⟩ := List.pairwise_cons.mp hsorted
      refine ⟨rfl, hlo b List.mem_cons_self, ?_⟩
      exact ih hrest hlt (fun x hx => hhi x (List.mem_cons_of_mem b hx))
        (hhi b List.mem_cons_self)

/-- An instant that stands twice in the sorted cuts makes an empty piece. -/
theorem exists_empty_piece {x : Int} (hsorted : inner.Pairwise (· ≤ ·))
    (hcount : 2 ≤ inner.count x) : ⟨s, x, x⟩ ∈ pieces s finish cursor inner := by
  induction inner generalizing cursor with
  | nil => simp at hcount
  | cons b rest ih =>
      obtain ⟨hle, hrest⟩ := List.pairwise_cons.mp hsorted
      by_cases hb : b = x
      · subst hb
        rw [List.count_cons_self] at hcount
        have hmem : b ∈ rest := List.count_pos_iff.mp (by omega)
        -- what follows the cut at `b` is the other cut at `b`
        obtain ⟨tail, rfl⟩ : ∃ tail, rest = b :: tail := by
          cases rest with
          | nil => cases hmem
          | cons c tail =>
              have hcb : c ≤ b := by
                rcases List.mem_cons.mp hmem with rfl | hmem
                · exact le_rfl
                · exact (List.pairwise_cons.mp hrest).1 b hmem
              exact ⟨tail, by rw [le_antisymm hcb (hle c List.mem_cons_self)]⟩
        simp [pieces]
      · rw [List.count_cons_of_ne hb] at hcount
        exact List.mem_cons_of_mem _ (ih hrest hcount)

end Pieces

section Split

variable {a b : Int} {intervals : List StateInterval} {boundaries : List Int}

/-- A piece lies in its interval, under its state, and straddles no boundary. -/
theorem mem_split {o : StateInterval} (h : Timeline a b intervals)
    (ho : o ∈ splitAtBoundaries intervals boundaries) :
    (∃ iv ∈ intervals, o.state = iv.state ∧ iv.start ≤ o.start ∧ o.finish ≤ iv.finish) ∧
      ∀ x ∈ boundaries, ¬ (o.start < x ∧ x < o.finish) := by
  obtain ⟨iv, hiv, hpiece⟩ := mem_splitAtBoundaries.mp ho
  obtain ⟨hstate, hlo, hhi, hwithin⟩ := mem_pieces hpiece (innerBoundaries_sorted boundaries iv)
    (fun x hx => (mem_innerBoundaries.mp hx).2.1.le)
    (fun x hx => (mem_innerBoundaries.mp hx).2.2.le) (h.bounds hiv).2.1.le
  refine ⟨⟨iv, hiv, hstate, hlo, hhi⟩, ?_⟩
  intro x hx hinside
  exact hwithin x (mem_innerBoundaries.mpr
    ⟨hx, hlo.trans_lt hinside.1, hinside.2.trans_le hhi⟩) hinside

/-- Splitting a list in which nothing straddles a boundary changes nothing. -/
theorem splitAtBoundaries_of_within {out : List StateInterval}
    (h : ∀ o ∈ out, ∀ x ∈ boundaries, ¬ (o.start < x ∧ x < o.finish)) :
    splitAtBoundaries out boundaries = out := by
  have hpieces : ∀ o ∈ out,
      pieces o.state o.finish o.start (innerBoundaries boundaries o) = [o] := by
    intro o ho
    have hnil : innerBoundaries boundaries o = [] := by
      rw [List.eq_nil_iff_forall_not_mem]
      intro x hx
      obtain ⟨hmem, hinside⟩ := mem_innerBoundaries.mp hx
      exact h o ho x hmem hinside
    rw [hnil]
    rfl
  rw [splitAtBoundaries_eq, List.flatMap_congr hpieces]
  exact List.flatMap_singleton' out

theorem splitAtBoundaries_timeline (h : Timeline a b intervals)
    (honce : ∀ iv ∈ intervals, ∀ x, iv.start < x → x < iv.finish → boundaries.count x ≤ 1) :
    Timeline a b (splitAtBoundaries intervals boundaries) := by
  rw [splitAtBoundaries_eq]
  induction intervals generalizing a with
  | nil => exact h
  | cons iv rest ih =>
      obtain ⟨rfl, hproper, hrest⟩ := h
      rw [List.flatMap_cons]
      have htail := ih hrest fun i hi => honce i (List.mem_cons_of_mem iv hi)
      refine Tiles.append (pieces_timeline ?_ ?_ ?_ hproper) htail
      · have hnodup : (innerBoundaries boundaries iv).Nodup := by
          rw [List.nodup_iff_count_le_one]
          intro x
          by_cases hx : x ∈ innerBoundaries boundaries iv
          · obtain ⟨-, hlo, hhi⟩ := mem_innerBoundaries.mp hx
            rw [count_innerBoundaries hlo hhi]
            exact honce iv List.mem_cons_self x hlo hhi
          · rw [List.count_eq_zero_of_not_mem hx]
            exact Nat.zero_le 1
        exact (innerBoundaries_sorted boundaries iv).imp₂ (fun _ _ => lt_of_le_of_ne) hnodup
      · exact fun x hx => (mem_innerBoundaries.mp hx).2.1
      · exact fun x hx => (mem_innerBoundaries.mp hx).2.2

/-- The split refines the timeline exactly when no boundary strictly inside an interval is
listed twice. -/
theorem splitAtBoundaries_refines_iff (h : Timeline a b intervals) (boundaries : List Int) :
    Refines a b intervals boundaries (splitAtBoundaries intervals boundaries) ↔
      ∀ iv ∈ intervals, ∀ x, iv.start < x → x < iv.finish → boundaries.count x ≤ 1 := by
  constructor
  · intro hrefines iv hiv x hlo hhi
    by_contra hmany
    have htwice : 2 ≤ (innerBoundaries boundaries iv).count x := by
      rw [count_innerBoundaries hlo hhi]
      omega
    have hempty := mem_splitAtBoundaries.mpr ⟨iv, hiv,
      exists_empty_piece (innerBoundaries_sorted boundaries iv) htwice⟩
    exact lt_irrefl x (hrefines.tiled.bounds hempty).2.1
  · intro honce
    have htiled := splitAtBoundaries_timeline h honce
    refine ⟨htiled, ?_, ?_, ?_⟩
    · intro t ht
      obtain ⟨o, ho, hto⟩ := htiled.exists_mem ht.1 ht.2
      obtain ⟨⟨iv, hiv, hstate, hlo, hhi⟩, -⟩ := mem_split h ho
      rw [htiled.stateOf_eq ho hto, h.stateOf_eq hiv ⟨hlo.trans hto.1, hto.2.trans_le hhi⟩,
        hstate]
    · exact fun o ho => (mem_split h ho).2
    · exact splitAtBoundaries_of_within fun o ho => (mem_split h ho).2

/-- A shift change inside a run, and one at its end. -/
theorem splitAtBoundaries_refines_shift :
    Refines 0 10 [⟨.running, 0, 10⟩] [10, 6]
      (splitAtBoundaries [⟨.running, 0, 10⟩] [10, 6]) := by
  refine (splitAtBoundaries_refines_iff (timeline_singleton (by decide)) [10, 6]).mpr ?_
  intro iv hiv x hlo hhi
  obtain rfl := List.mem_singleton.mp hiv
  have hten : (10 == x) = false := beq_eq_false_iff_ne.mpr hhi.ne'
  rw [List.count_cons, hten]
  exact List.count_le_length

/-- Where one shift ends and the next begins, both name the boundary. -/
theorem splitAtBoundaries_twice_listed :
    splitAtBoundaries [⟨.running, 0, 10⟩] [6, 6] =
        [⟨.running, 0, 6⟩, ⟨.running, 6, 6⟩, ⟨.running, 6, 10⟩] ∧
      ¬ Refines 0 10 [⟨.running, 0, 10⟩] [6, 6]
        (splitAtBoundaries [⟨.running, 0, 10⟩] [6, 6]) := by
  refine ⟨by decide, ?_⟩
  intro hrefines
  have hmem : (⟨.running, 6, 6⟩ : StateInterval) ∈
      splitAtBoundaries [⟨.running, 0, 10⟩] [6, 6] := by decide
  exact lt_irrefl _ (hrefines.tiled.bounds hmem).2.1

end Split

end ElectronixMes.Core
