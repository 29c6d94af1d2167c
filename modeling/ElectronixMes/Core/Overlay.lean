import ElectronixMes.Core.Gaps

/-!
# Planned stops overlay the timeline

At an instant that a planned stop covers the overlaid state is the planned stop, and
elsewhere it is the raw one. The overlay cuts a raw interval only where the coverage
changes and joins planned stops that touch, so it depends on the covered instants alone
and not on the list that covers them.
-/

namespace ElectronixMes.Core

open ElectronixMes.Timeline

/-- Some planned stop covers the instant. -/
def Planned (planned : List PlannedInterval) (t : Int) : Prop :=
  ∃ p ∈ planned, p.start ≤ t ∧ t < p.finish

instance (planned : List PlannedInterval) (t : Int) : Decidable (Planned planned t) :=
  inferInstanceAs (Decidable (∃ p ∈ planned, p.start ≤ t ∧ t < p.finish))

/-- What is pushed over the intervals: planned stops on covered instants, and parts of an
interval between them, which meet only where an interval starts. -/
structure Overlaid (planned : List PlannedInterval) (intervals out : List StateInterval) :
    Prop where
  stops : ∀ o ∈ out, o.state = .plannedStop → ∀ t ∈ o.span, Planned planned t
  parts : ∀ o ∈ out, o.state ≠ .plannedStop →
    (∀ t ∈ o.span, ¬ Planned planned t) ∧
      ∃ iv ∈ intervals, o.state = iv.state ∧ iv.start ≤ o.start ∧ o.finish ≤ iv.finish
  joints : out.IsChain fun i j => i.state = j.state →
    i.state ≠ .plannedStop ∧ ∃ iv ∈ intervals, iv.start = j.start

/-- An interval is being cut: the cuts that remain cover what is left of it, and a planned
stop that was pushed last starts before them. -/
structure Cutting (planned : List PlannedInterval) (intervals : List StateInterval)
    (iv : StateInterval) (rest : List (Int × Int)) (acc : List StateInterval × Int) : Prop where
  overlaid : Overlaid planned intervals acc.1
  left : ∀ t ∈ iv.span, acc.2 ≤ t →
    (Planned planned t ↔ ∃ cut ∈ rest, cut.1 ≤ t ∧ t < cut.2)
  last : acc.2 = iv.start ∨ ∃ l, acc.1.getLast? = some l ∧ l.state = .plannedStop ∧
    ∀ cut ∈ rest, l.start ≤ cut.1

section Overlaid

variable {planned : List PlannedInterval} {intervals out : List StateInterval}
  {iv : StateInterval} {a b : Int}

theorem Overlaid.nil : Overlaid planned intervals [] where
  stops := fun _ h => absurd h List.not_mem_nil
  parts := fun _ h => absurd h List.not_mem_nil
  joints := List.isChain_nil

/-- A planned stop behind something else. -/
theorem Overlaid.pushStop (h : Overlaid planned intervals out)
    (hlast : ∀ l ∈ out.getLast?, l.state ≠ .plannedStop)
    (hcovered : ∀ t ∈ (⟨a, b⟩ : Span Int), Planned planned t) :
    Overlaid planned intervals (out ++ [⟨.plannedStop, a, b⟩]) where
  stops := by
    rw [List.forall_mem_append, List.forall_mem_singleton]
    exact ⟨h.stops, fun _ => hcovered⟩
  parts := by
    rw [List.forall_mem_append, List.forall_mem_singleton]
    exact ⟨h.parts, fun hpart => absurd rfl hpart⟩
  joints := by
    apply List.isChain_append.mpr
    refine ⟨h.joints, List.isChain_singleton _, ?_⟩
    intro l hl o ho hsame
    obtain rfl := Option.some.inj ho
    exact absurd hsame (hlast l hl)

/-- A part of an interval, at its start or behind a planned stop. -/
theorem Overlaid.pushPart (h : Overlaid planned intervals out) (hiv : iv ∈ intervals)
    (hraw : iv.state ≠ .plannedStop) (hlo : iv.start ≤ a) (hhi : b ≤ iv.finish)
    (hlast : a = iv.start ∨ ∃ l, out.getLast? = some l ∧ l.state = .plannedStop)
    (hfree : ∀ t ∈ (⟨a, b⟩ : Span Int), ¬ Planned planned t) :
    Overlaid planned intervals (out ++ [⟨iv.state, a, b⟩]) where
  stops := by
    rw [List.forall_mem_append, List.forall_mem_singleton]
    exact ⟨h.stops, fun hstop => absurd hstop hraw⟩
  parts := by
    rw [List.forall_mem_append, List.forall_mem_singleton]
    exact ⟨h.parts, fun _ => ⟨hfree, iv, hiv, rfl, hlo, hhi⟩⟩
  joints := by
    apply List.isChain_append.mpr
    refine ⟨h.joints, List.isChain_singleton _, ?_⟩
    intro l hl o ho hsame
    obtain rfl := Option.some.inj ho
    dsimp only at hsame ⊢
    refine ⟨hsame ▸ hraw, ?_⟩
    rcases hlast with rfl | ⟨l', hl', hstop⟩
    · exact ⟨iv, hiv, rfl⟩
    · rw [hl'] at hl
      obtain rfl := Option.some.inj hl
      exact absurd (hsame.symm.trans hstop) hraw

/-- The planned stop pushed last can be made longer. -/
theorem Overlaid.extendLast {l : StateInterval} (h : Overlaid planned intervals out)
    (hlast : out.getLast? = some l) (hstop : l.state = .plannedStop)
    (hcovered : ∀ t, l.finish ≤ t → t < b → Planned planned t) :
    Overlaid planned intervals (out.dropLast ++ [{ l with finish := b }]) := by
  obtain ⟨init, rfl⟩ := List.getLast?_eq_some_iff.mp hlast
  rw [List.dropLast_concat]
  constructor
  · intro o ho hst t ht
    rcases List.mem_append.mp ho with ho | ho
    · exact h.stops o (List.mem_append_left _ ho) hst t ht
    · obtain rfl := List.mem_singleton.mp ho
      by_cases hin : t < l.finish
      · exact h.stops l (by simp) hstop t ⟨ht.1, hin⟩
      · exact hcovered t (not_lt.mp hin) ht.2
  · intro o ho hpart
    rcases List.mem_append.mp ho with ho | ho
    · exact h.parts o (List.mem_append_left _ ho) hpart
    · rw [List.mem_singleton.mp ho] at hpart
      exact absurd hstop hpart
  · obtain ⟨hinit, -, hjoint⟩ := List.isChain_append.mp h.joints
    apply List.isChain_append.mpr
    refine ⟨hinit, List.isChain_singleton _, ?_⟩
    intro i hi o ho
    obtain rfl := Option.some.inj ho
    exact hjoint i hi l rfl

/-- Tilings overlaid with the same coverage are one. -/
theorem Overlaid.unique {planned' : List PlannedInterval} {out' : List StateInterval}
    (h : Overlaid planned intervals out) (h' : Overlaid planned' intervals out')
    (hintervals : Timeline a b intervals) (hout : Timeline a b out) (hout' : Timeline a b out')
    (hsame : ∀ t ∈ (⟨a, b⟩ : Span Int), Planned planned' t ↔ Planned planned t) :
    out = out' := by
  let mark (s : MachineState) (t : Int) : Prop :=
    s ≠ .plannedStop ∧ ∃ iv ∈ intervals, iv.start = t
  have hreduced {planned : List PlannedInterval} {out : List StateInterval}
      (h : Overlaid planned intervals out) :
      Reduced StateInterval.span StateInterval.state mark out := by
    refine ⟨h.joints, ?_⟩
    rintro o ho t hlo hhi ⟨hpart, iv, hiv, rfl⟩
    -- an interval does not start inside another one
    obtain ⟨-, jv, hjv, -, hstart, hfinish⟩ := h.parts o ho hpart
    have hproper := (hintervals.bounds hiv).2.1
    have hjoin : jv = iv := hintervals.eq_of_mem (t := iv.start) hjv hiv
      ⟨hstart.trans hlo.le, hhi.trans_le hfinish⟩ ⟨le_rfl, hproper⟩
    exact absurd (hjoin ▸ hstart) (not_le.mpr hlo)
  have hmap := Reduced.unique hout hout' (hreduced h) (hreduced h') ?_
  · refine List.map_injective_iff.mpr ?_ hmap
    rintro ⟨s, lo, hi⟩ ⟨s', lo', hi'⟩ heq
    simpa [StateInterval.span, and_comm, and_assoc] using heq
  · intro i hi j hj t hti htj
    have hbounds := hout.bounds hi
    have ht : t ∈ (⟨a, b⟩ : Span Int) := ⟨hbounds.1.trans hti.1, hti.2.trans_le hbounds.2.2⟩
    by_cases hstop : i.state = .plannedStop
    · by_cases hstop' : j.state = .plannedStop
      · rw [hstop, hstop']
      · have hcovered := (hsame t ht).mpr (h.stops i hi hstop t hti)
        exact absurd hcovered ((h'.parts j hj hstop').1 t htj)
    · obtain ⟨hfree, iv, hiv, hstate, hlo, hfin⟩ := h.parts i hi hstop
      by_cases hstop' : j.state = .plannedStop
      · exact absurd ((hsame t ht).mp (h'.stops j hj hstop' t htj)) (hfree t hti)
      · obtain ⟨-, jv, hjv, hstate', hlo', hfin'⟩ := h'.parts j hj hstop'
        have hjoin : iv = jv := hintervals.eq_of_mem (t := t) hiv hjv
          ⟨hlo.trans hti.1, hti.2.trans_le hfin⟩ ⟨hlo'.trans htj.1, htj.2.trans_le hfin'⟩
        rw [hstate, hstate', hjoin]

end Overlaid

section Cutting

variable {planned : List PlannedInterval} {intervals out : List StateInterval}
  {iv : StateInterval} {a b : Int}

theorem planned_iff_cuts {t : Int} (ht : t ∈ iv.span) :
    Planned planned t ↔ ∃ cut ∈ cuts planned iv, cut.1 ≤ t ∧ t < cut.2 := by
  constructor
  · rintro ⟨p, hp, hlo, hhi⟩
    have hmax : max p.start iv.start ≤ t := max_le hlo ht.1
    have hmin : t < min p.finish iv.finish := lt_min hhi ht.2
    refine ⟨(max p.start iv.start, min p.finish iv.finish), ?_, hmax, hmin⟩
    unfold cuts
    rw [List.mem_insertionSort]
    exact List.mem_filterMap.mpr ⟨p, hp, if_pos (hmax.trans_lt hmin)⟩
  · rintro ⟨cut, hcut, hlo, hhi⟩
    unfold cuts at hcut
    rw [List.mem_insertionSort] at hcut
    obtain ⟨p, hp, heq⟩ := List.mem_filterMap.mp hcut
    dsimp only at heq
    split at heq
    · cases heq
      exact ⟨p, hp, (le_max_left _ _).trans hlo, hhi.trans_le (min_le_left _ _)⟩
    · cases heq

theorem Cutting.start (h : Overlaid planned intervals out) (iv : StateInterval) :
    Cutting planned intervals iv (cuts planned iv) (out, iv.start) where
  overlaid := h
  left := fun _ ht _ => planned_iff_cuts ht
  last := Or.inl rfl

section Cut

variable {cursor : Int} {cut : Int × Int} {rest : List (Int × Int)}

theorem Cutting.covered (h : Cutting planned intervals iv (cut :: rest) (out, cursor))
    (hstart : iv.start ≤ cursor) (hfin : cut.2 ≤ iv.finish) {t : Int} (hcursor : cursor ≤ t)
    (hs : cut.1 ≤ t) (he : t < cut.2) : Planned planned t := by
  have ht : t ∈ iv.span := ⟨hstart.trans hcursor, he.trans_le hfin⟩
  apply (h.left t ht hcursor).mpr
  exact ⟨cut, List.mem_cons_self, hs, he⟩

/-- Behind the cut only the other cuts are left. -/
theorem Cutting.behind (h : Cutting planned intervals iv (cut :: rest) (out, cursor)) {t : Int}
    (ht : t ∈ iv.span) (hcursor : cursor ≤ t) (he : cut.2 ≤ t) :
    Planned planned t ↔ ∃ c ∈ rest, c.1 ≤ t ∧ t < c.2 := by
  have hpast : ¬ (cut.1 ≤ t ∧ t < cut.2) := fun hmem => absurd hmem.2 (not_lt.mpr he)
  rw [h.left t ht hcursor, List.exists_mem_cons_iff]
  exact or_iff_right hpast

/-- In front of the cut nothing is planned, for the other cuts start later. -/
theorem Cutting.free (h : Cutting planned intervals iv (cut :: rest) (out, cursor))
    (hstart : iv.start ≤ cursor) (hfin : cut.1 ≤ iv.finish) (hrest : ∀ c ∈ rest, cut.1 ≤ c.1) :
    ∀ t ∈ (⟨cursor, cut.1⟩ : Span Int), ¬ Planned planned t := by
  intro t ht hplanned
  have hspan : t ∈ iv.span := ⟨hstart.trans ht.1, ht.2.trans_le hfin⟩
  obtain ⟨c, hc, hlo, -⟩ := (h.left t hspan ht.1).mp hplanned
  have hlater : ∀ c ∈ cut :: rest, cut.1 ≤ c.1 := by
    rw [List.forall_mem_cons]
    exact ⟨le_rfl, hrest⟩
  exact absurd ht.2 (not_lt.mpr ((hlater c hc).trans hlo))

/-- A cut behind the cursor: a part of the interval, then a stop of its own. -/
theorem Cutting.pushBoth (h : Cutting planned intervals iv (cut :: rest) (out, cursor))
    (hstart : iv.start ≤ cursor) (hiv : iv ∈ intervals) (hraw : iv.state ≠ .plannedStop)
    (hcut : cut.1 < cut.2 ∧ cut.2 ≤ iv.finish) (hrest : ∀ c ∈ rest, cut.1 ≤ c.1)
    (hpart : cursor < cut.1) :
    Cutting planned intervals iv rest
      (out ++ [⟨iv.state, cursor, cut.1⟩] ++ [⟨.plannedStop, cut.1, cut.2⟩], cut.2) := by
  have hfin : cut.1 ≤ iv.finish := hcut.1.le.trans hcut.2
  have hstop : cursor = iv.start ∨ ∃ l, out.getLast? = some l ∧ l.state = .plannedStop := by
    apply h.last.imp_right
    rintro ⟨l, hl, hstop, -⟩
    exact ⟨l, hl, hstop⟩
  have hpushed := h.overlaid.pushPart hiv hraw hstart hfin hstop (h.free hstart hfin hrest)
  have hlabel : ∀ l ∈ (out ++ [(⟨iv.state, cursor, cut.1⟩ : StateInterval)]).getLast?,
      l.state ≠ .plannedStop := by
    intro l hl
    rw [List.getLast?_concat] at hl
    obtain rfl := Option.some.inj hl
    exact hraw
  refine ⟨hpushed.pushStop hlabel ?_, ?_, Or.inr ⟨_, List.getLast?_concat, rfl, hrest⟩⟩
  · intro t ht
    exact h.covered hstart hcut.2 (hpart.le.trans ht.1) ht.1 ht.2
  · intro t ht he
    exact h.behind ht (hpart.le.trans (hcut.1.le.trans he)) he

/-- A cut that touches the stop pushed last makes it longer. -/
theorem Cutting.lengthen (h : Cutting planned intervals iv (cut :: rest) (out, cursor))
    (hstart : iv.start ≤ cursor) (hcut : iv.start ≤ cut.1 ∧ cut.2 ≤ iv.finish)
    (hrest : ∀ c ∈ rest, cut.1 ≤ c.1) (hle : cut.1 ≤ cursor) {l : StateInterval}
    (hl : out.getLast? = some l) (hstop : l.state = .plannedStop) (hfinish : l.finish = cursor)
    (hlt : l.start < cursor) :
    Cutting planned intervals iv rest
      (out.dropLast ++ [{ l with finish := max cursor cut.2 }], max cursor cut.2) := by
  refine ⟨h.overlaid.extendLast hl hstop ?_, ?_, Or.inr ⟨_, List.getLast?_concat, hstop, ?_⟩⟩
  · intro t hlo hhi
    rw [hfinish] at hlo
    exact h.covered hstart hcut.2 hlo (hle.trans hlo) (by omega)
  · intro t ht hmax
    exact h.behind ht ((le_max_left _ _).trans hmax) ((le_max_right _ _).trans hmax)
  · intro c hc
    apply h.last.elim
    · intro hfresh
      calc
        l.start ≤ cursor := hlt.le
        _ = iv.start := hfresh
        _ ≤ cut.1 := hcut.1
        _ ≤ c.1 := hrest c hc
    · rintro ⟨l', hl', -, hbefore⟩
      rw [hl] at hl'
      obtain rfl := Option.some.inj hl'
      exact hbefore c (List.mem_cons_of_mem _ hc)

/-- A cut at the very start of the interval is a stop of its own. -/
theorem Cutting.pushFirst (h : Cutting planned intervals iv (cut :: rest) (out, cut.1))
    (hstart : iv.start ≤ cut.1) (hcut : cut.1 < cut.2 ∧ cut.2 ≤ iv.finish)
    (hrest : ∀ c ∈ rest, cut.1 ≤ c.1)
    (hlast : ¬ ∃ l, out.getLast? = some l ∧ l.state = .plannedStop) :
    Cutting planned intervals iv rest (out ++ [⟨.plannedStop, cut.1, cut.2⟩], cut.2) := by
  refine ⟨h.overlaid.pushStop ?_ ?_, ?_, Or.inr ⟨_, List.getLast?_concat, rfl, hrest⟩⟩
  · intro l hl hstop
    exact hlast ⟨l, hl, hstop⟩
  · intro t ht
    exact h.covered hstart hcut.2 ht.1 ht.1 ht.2
  · intro t ht he
    exact h.behind ht (hcut.1.le.trans he) he

/-- One cut: what is before it is a part of the interval, and it is a planned stop of its
own or the longer end of the one before it. -/
theorem Cutting.step {acc : List StateInterval × Int}
    (h : Cutting planned intervals iv (cut :: rest) acc)
    (hok : CutOk a iv acc) (hiv : iv ∈ intervals) (hraw : iv.state ≠ .plannedStop)
    (hcut : iv.start ≤ cut.1 ∧ cut.1 < cut.2 ∧ cut.2 ≤ iv.finish)
    (hrest : ∀ c ∈ rest, cut.1 ≤ c.1) :
    Cutting planned intervals iv rest (cutStep iv acc cut) := by
  obtain ⟨out, cursor⟩ := acc
  obtain ⟨htiled, hstart, hfin, -⟩ := hok
  dsimp only at htiled hstart hfin
  by_cases hpart : cursor < cut.1
  · have heq : cutStep iv (out, cursor) cut
        = (out ++ [⟨iv.state, cursor, cut.1⟩] ++ [⟨.plannedStop, cut.1, cut.2⟩], cut.2) := by
      simp [cutStep, hpart, hraw, max_eq_right hpart.le]
    rw [heq]
    exact h.pushBoth hstart hiv hraw hcut.2 hrest hpart
  · have hle : cut.1 ≤ cursor := not_lt.mp hpart
    by_cases hmerge : ∃ l, out.getLast? = some l ∧ l.state = .plannedStop
    · obtain ⟨l, hl, hstop⟩ := hmerge
      obtain ⟨hfinish, hlt, -⟩ := htiled.of_getLast? hl
      have heq : cutStep iv (out, cursor) cut
          = (out.dropLast ++ [{ l with finish := max cursor cut.2 }], max cursor cut.2) := by
        simp [cutStep, hpart, hl, hstop, hfinish, hle]
      rw [heq]
      exact h.lengthen hstart ⟨hcut.1, hcut.2.2⟩ hrest hle hl hstop hfinish (hfinish ▸ hlt)
    · -- nothing was cut off the interval yet
      have hfresh : cursor = iv.start := by
        apply h.last.resolve_right
        rintro ⟨l, hl, hstop, -⟩
        exact hmerge ⟨l, hl, hstop⟩
      have hs : cursor = cut.1 := le_antisymm (hfresh.trans_le hcut.1) hle
      subst hs
      have heq : cutStep iv (out, cut.1) cut = (out ++ [⟨.plannedStop, cut.1, cut.2⟩], cut.2) := by
        cases hl : out.getLast? with
        | none => simp [cutStep, hl]
        | some l =>
            have hstate : l.state ≠ .plannedStop := fun hstop => hmerge ⟨l, hl, hstop⟩
            simp [cutStep, hl, hstate]
      rw [heq]
      exact h.pushFirst hstart hcut.2 hrest hmerge

end Cut

theorem Cutting.foldl {rest : List (Int × Int)} {acc : List StateInterval × Int}
    (h : Cutting planned intervals iv rest acc) (hok : CutOk a iv acc) (hiv : iv ∈ intervals)
    (hraw : iv.state ≠ .plannedStop)
    (hcuts : ∀ c ∈ rest, iv.start ≤ c.1 ∧ c.1 < c.2 ∧ c.2 ≤ iv.finish)
    (hsorted : rest.Pairwise fun c d => c.1 ≤ d.1) :
    Cutting planned intervals iv [] (rest.foldl (cutStep iv) acc) ∧
      CutOk a iv (rest.foldl (cutStep iv) acc) := by
  induction rest generalizing acc with
  | nil => exact ⟨h, hok⟩
  | cons cut rest ih =>
      obtain ⟨hle, hrest⟩ := List.pairwise_cons.mp hsorted
      have hcut := hcuts cut List.mem_cons_self
      exact ih (h.step hok hiv hraw hcut hle) (cutStep_ok hok hcut)
        (fun c hc => hcuts c (List.mem_cons_of_mem cut hc)) hrest

theorem cuts_sorted (planned : List PlannedInterval) (iv : StateInterval) :
    (cuts planned iv).Pairwise fun c d => c.1 ≤ d.1 :=
  List.pairwise_insertionSort (fun c d : Int × Int => c.1 ≤ d.1) _

theorem Overlaid.overlay (h : Overlaid planned intervals out)
    (hout : Timeline a iv.start out) (hiv : iv ∈ intervals) (hraw : iv.state ≠ .plannedStop)
    (hproper : iv.start < iv.finish) : Overlaid planned intervals (overlay planned out iv) := by
  obtain ⟨hcutting, hok⟩ := (Cutting.start h iv).foldl
    ⟨hout, le_rfl, hproper.le, Or.inl rfl⟩ hiv hraw (fun c hc => mem_cuts hc)
    (cuts_sorted planned iv)
  unfold Core.overlay
  dsimp only
  split
  · refine hcutting.overlaid.pushPart hiv hraw hok.start_le le_rfl hok.last ?_
    intro t ht hplanned
    obtain ⟨c, hc, -⟩ := (hcutting.left t ⟨hok.start_le.trans ht.1, ht.2⟩ ht.1).mp hplanned
    exact List.not_mem_nil hc
  · exact hcutting.overlaid

/-- The overlay of a raw timeline. -/
theorem applyPlannedStops_overlaid (planned : List PlannedInterval)
    (h : Timeline a b intervals) (hraw : ∀ iv ∈ intervals, iv.state ≠ .plannedStop) :
    Overlaid planned intervals (applyPlannedStops intervals planned) := by
  have hgen : ∀ (rest : List StateInterval) (m : Int) (out : List StateInterval),
      (∀ iv ∈ rest, iv ∈ intervals) → Timeline a m out → Timeline m b rest →
      Overlaid planned intervals out →
      Overlaid planned intervals (rest.foldl (Core.overlay planned) out) := by
    intro rest
    induction rest with
    | nil =>
        intro m out _ _ _ hover
        exact hover
    | cons iv rest ih =>
        rintro m out hmem hout ⟨rfl, hproper, hrest⟩ hover
        have hiv := hmem iv List.mem_cons_self
        exact ih _ _ (fun i hi => hmem i (List.mem_cons_of_mem iv hi))
          (overlay_timeline hout hproper) hrest (hover.overlay hout hiv (hraw iv hiv) hproper)
  exact hgen intervals a [] (fun _ hiv => hiv) rfl h .nil

end Cutting

section Exact

variable {a b : Int} {intervals : List StateInterval}

/-- The overlay is exact: covered instants are planned stops and the others keep their
state, planned stops are never neighbours, and only what is covered counts. -/
theorem applyPlannedStops_exact (h : Timeline a b intervals)
    (hraw : ∀ iv ∈ intervals, iv.state ≠ .plannedStop) (planned : List PlannedInterval) :
    let out := applyPlannedStops intervals planned
    Timeline a b out ∧
      (∀ t ∈ (⟨a, b⟩ : Span Int), stateOf out t =
        if Planned planned t then some .plannedStop else stateOf intervals t) ∧
      (out.IsChain fun i j => ¬ (i.state = .plannedStop ∧ j.state = .plannedStop)) ∧
      ∀ planned' : List PlannedInterval,
        (∀ t ∈ (⟨a, b⟩ : Span Int), Planned planned' t ↔ Planned planned t) →
          applyPlannedStops intervals planned' = out := by
  intro out
  have htiled : Timeline a b out := applyPlannedStops_timeline planned h
  have hover : Overlaid planned intervals out := applyPlannedStops_overlaid planned h hraw
  refine ⟨htiled, ?_, ?_, ?_⟩
  · intro t ht
    obtain ⟨o, ho, hto⟩ := htiled.exists_mem ht.1 ht.2
    rw [htiled.stateOf_eq ho hto]
    by_cases hstop : o.state = .plannedStop
    · rw [if_pos (hover.stops o ho hstop t hto), hstop]
    · obtain ⟨hfree, iv, hiv, hstate, hlo, hhi⟩ := hover.parts o ho hstop
      rw [if_neg (hfree t hto), h.stateOf_eq hiv ⟨hlo.trans hto.1, hto.2.trans_le hhi⟩, hstate]
  · refine hover.joints.imp ?_
    rintro i j hjoint ⟨hi, hj⟩
    exact (hjoint (hi.trans hj.symm)).1 hi
  · intro planned' hsame
    exact (applyPlannedStops_overlaid planned' h hraw).unique hover h
      (applyPlannedStops_timeline planned' h) htiled fun t ht => (hsame t ht).symm

/-- A shift whose stop is planned twice, once reversed, and once in two touching halves. -/
theorem applyPlannedStops_exact_shift :
    applyPlannedStops [⟨.running, 0, 10⟩, ⟨.down, 10, 20⟩] [⟨8, 15⟩, ⟨9, 12⟩, ⟨4, 2⟩] =
        [⟨.running, 0, 8⟩, ⟨.plannedStop, 8, 15⟩, ⟨.down, 15, 20⟩] ∧
      applyPlannedStops [⟨.running, 0, 10⟩, ⟨.down, 10, 20⟩] [⟨12, 15⟩, ⟨8, 12⟩] =
        applyPlannedStops [⟨.running, 0, 10⟩, ⟨.down, 10, 20⟩] [⟨8, 15⟩, ⟨9, 12⟩, ⟨4, 2⟩] := by
  have htiled : Timeline 0 20 [⟨.running, 0, 10⟩, ⟨.down, 10, 20⟩] :=
    ⟨rfl, by decide, rfl, by decide, rfl⟩
  have hexact := applyPlannedStops_exact htiled (by decide) [⟨8, 15⟩, ⟨9, 12⟩, ⟨4, 2⟩]
  refine ⟨by decide, hexact.2.2.2 _ ?_⟩
  intro t _
  simp only [Planned, List.mem_cons, List.not_mem_nil, or_false, exists_eq_or_imp,
    exists_eq_left]
  omega

end Exact

end ElectronixMes.Core
