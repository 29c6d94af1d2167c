import ElectronixMes.Derived.Settled
import ElectronixMes.Db.RepoOee
import ElectronixMes.Transition.Run
import Mathlib.Data.List.Pairwise

/-!
# The derived timeline over whole runs

A run is a list of recomputes over arbitrary windows, between which the stored
pulses and planned stops change arbitrarily. Every reached timeline is
disjoint, so availability is a ratio; its intervals are non-empty as long as the
windows that are recomputed have settled edges. A recompute keeps the timeline
outside its window when no row straddles an edge of the window, since the delete
takes whole rows and the insert covers the window only, and when what it writes
for the rest of the microsecond that an edge falls into stood there before.
-/

namespace ElectronixMes.Derived

open Db ElectronixMes.Core Edge Relational Timeline Transition

/-- One step of a serial run: a recompute, or new contents of the tables it
reads. -/
inductive RecomputeOp where
  | recompute (workCenterId : String) (start finish : Int) (ids : ℕ → String)
  | store (machineEvents : Table MachineEventRow) (plannedStops : Table PlannedStopRow)

def recomputeStep (db : Database) : RecomputeOp → Database
  | .recompute wc start finish ids => afterRecompute db wc start finish ids
  | .store machineEvents plannedStops => { db with machineEvents, plannedStops }

/-- A database in which nothing has been derived yet. -/
def underived (db : Database) : Database :=
  { db with machineStates := ∅, downtimeEvents := ∅ }

/-- The database a run of recomputes reaches. -/
def reached (db : Database) (ops : List RecomputeOp) : Database :=
  ops.foldl recomputeStep (underived db)

/-- What holds initially, and is kept by successful recomputes and by new
contents of the tables they read, holds in every reached state. -/
theorem reached_induction {P : Database → Prop} (db : Database) (ops : List RecomputeOp)
    (hinit : P (underived db))
    (hrecompute : ∀ db db' wc start finish ids n, P db →
      recomputeStates db wc start finish ids = .ok (db', n) → P db')
    (hstore : ∀ db machineEvents plannedStops, P db →
      P { db with machineEvents, plannedStops }) :
    P (reached db ops) := by
  refine List.foldlRecOn ops recomputeStep hinit ?_
  intro db hdb op _
  cases op with
  | recompute wc start finish ids =>
      unfold recomputeStep afterRecompute
      dsimp only
      cases hok : recomputeStates db wc start finish ids with
      | error e => exact hdb
      | ok res => exact hrecompute db res.1 wc start finish ids res.2 hdb hok
  | store machineEvents plannedStops => exact hstore db machineEvents plannedStops hdb

section Disjoint

variable {db db' : Database} {wc wc' : String} {start finish : Int} {ids : ℕ → String}
  {n : ℕ × ℕ}

theorem newStates_apart {a b : MachineStateRow} (ha : a ∈ newStates db wc start finish ids)
    (hb : b ∈ newStates db wc start finish ids) (hne : a ≠ b) : Span.Apart a.span b.span :=
  newStates_pairwise.forall ha hb hne

/-- A kept row lies apart from the window, hence from every new row. -/
theorem apart_newStates {r new : MachineStateRow}
    (hr : Span.Apart r.span ⟨toSql start, toSql finish⟩)
    (hnew : new ∈ newStates db wc start finish ids) : Span.Apart r.span new.span := by
  obtain ⟨iv, hiv, -, -, hspan⟩ := mem_newStates hnew
  obtain ⟨hlo, -, hhi⟩ := derivedStates_bounds hiv
  rw [hspan]
  exact hr.mono_right hlo hhi

theorem statesApart_recompute (h : StatesApart db wc')
    (hok : recomputeStates db wc start finish ids = .ok (db', n)) : StatesApart db' wc' := by
  constructor
  · intro r hr hwc
    rcases (mem_machineStates_of_ok hok).mp hr with ⟨hr, -⟩ | hnew
    · exact h.proper r hr hwc
    · obtain ⟨iv, hiv, -, -, hspan⟩ := mem_newStates hnew
      have hle : r.span.lo ≤ r.span.hi := hspan ▸ (derivedStates_bounds hiv).2.1
      exact hle
  · intro a ha b hb hwa hwb hne
    rcases (mem_machineStates_of_ok hok).mp ha with ⟨ha, haw⟩ | ha <;>
    rcases (mem_machineStates_of_ok hok).mp hb with ⟨hb, hbw⟩ | hb
    · exact h.apart a ha b hb hwa hwb hne
    · obtain ⟨-, -, hwc, -, -⟩ := mem_newStates hb
      exact apart_newStates (haw (hwa.trans (hwb.symm.trans hwc))) hb
    · obtain ⟨-, -, hwc, -, -⟩ := mem_newStates ha
      exact (apart_newStates (hbw (hwb.trans (hwa.symm.trans hwc))) ha).symm
    · exact newStates_apart ha hb hne

theorem statesApart_reached (db : Database) (ops : List RecomputeOp) (wc : String) :
    StatesApart (reached db ops) wc := by
  refine reached_induction (P := fun db => StatesApart db wc) db ops ?_ ?_ ?_
  · exact ⟨fun r hr => absurd hr (Table.notMem_empty r),
      fun a ha => absurd ha (Table.notMem_empty a)⟩
  · intro db db' wc' start finish ids n h hok
    exact statesApart_recompute h hok
  · intro db machineEvents plannedStops h
    exact ⟨h.proper, h.apart⟩

/-- A recompute of the work center has a window with settled edges. -/
def SettledStep (wc : String) (db : Database) : RecomputeOp → Prop
  | .recompute wc' start finish _ => wc' = wc → EdgesSettled db wc start finish
  | .store _ _ => True

instance (wc : String) (db : Database) : (op : RecomputeOp) → Decidable (SettledStep wc db op)
  | .recompute wc' start finish _ =>
      inferInstanceAs (Decidable (wc' = wc → EdgesSettled db wc start finish))
  | .store _ _ => isTrue trivial

/-- The intervals of a work center are non-empty. -/
def StatesProper (db : Database) (wc : String) : Prop :=
  ∀ r ∈ db.machineStates, r.workCenterId = wc → r.startTs < r.endTs

theorem statesProper_recompute (h : StatesProper db wc')
    (hok : recomputeStates db wc start finish ids = .ok (db', n))
    (hsettled : wc = wc' → EdgesSettled db wc' start finish) : StatesProper db' wc' := by
  intro r hr hwc
  rcases (mem_machineStates_of_ok hok).mp hr with ⟨hr, -⟩ | hnew
  · exact h r hr hwc
  · obtain ⟨iv, hiv, hrwc, -, hspan⟩ := mem_newStates hnew
    obtain rfl : wc = wc' := hrwc.symm.trans hwc
    have hproper : r.span.Proper := hspan ▸ resolved_of_edgesSettled (hsettled rfl) iv hiv
    exact hproper

/-- A successful recompute of a window whose edges are not settled stores an empty interval. -/
theorem empty_of_not_settled (hok : recomputeStates db wc start finish ids = .ok (db', n))
    (hnot : ¬ EdgesSettled db wc start finish) :
    ∃ r ∈ db'.machineStates, r.workCenterId = wc ∧ r.startTs = r.endTs := by
  simp only [← resolved_iff, Resolved, not_forall] at hnot
  obtain ⟨iv, hiv, hlt⟩ := hnot
  obtain ⟨r, hr, hwc, -, hspan⟩ := exists_newStates ids hiv
  refine ⟨r, (mem_machineStates_of_ok hok).mpr (Or.inr hr), hwc, ?_⟩
  have hempty : r.span.lo = r.span.hi := by
    rw [hspan]
    exact le_antisymm (derivedStates_bounds hiv).2.1 (not_lt.mp hlt)
  exact hempty

/-- In every state of a run whose recomputes have windows with settled edges, the intervals of
a work center are non-empty and share no instant, and the availability of every window is in
`[0, 1]`. -/
theorem reached_states_disjoint (db : Database) (ops : List RecomputeOp) (wc : String)
    (hsettled : Along recomputeStep (SettledStep wc) (underived db) ops) (k : ℕ) :
    (∀ r ∈ (reached db (ops.take k)).machineStates, r.workCenterId = wc →
      r.startTs < r.endTs) ∧
    (∀ a ∈ (reached db (ops.take k)).machineStates,
      ∀ b ∈ (reached db (ops.take k)).machineStates,
        a.workCenterId = wc → b.workCenterId = wc → a ≠ b →
          ∀ t, a.startTs ≤ t ∧ t < a.endTs → ¬ (b.startTs ≤ t ∧ t < b.endTs)) ∧
    (∀ start finish res, start < finish →
      oeeSql (reached db (ops.take k)) wc (toSql start) (toSql finish) = .ok res →
        0 ≤ res.availability ∧ res.availability ≤ 1) := by
  have h := statesApart_reached db (ops.take k) wc
  refine ⟨?_, ?_, ?_⟩
  · refine (hsettled.take k).invariant (I := fun db => StatesProper db wc) ?_ ?_
    · intro db op hproper hstep
      cases op with
      | recompute wc' start finish ids =>
          unfold recomputeStep afterRecompute
          dsimp only
          cases hok : recomputeStates db wc' start finish ids with
          | error e => exact hproper
          | ok res => exact statesProper_recompute hproper hok hstep
      | store machineEvents plannedStops => exact hproper
    · intro r hr
      exact absurd hr (Table.notMem_empty r)
  · intro a ha b hb hwa hwb hne t hta
    exact (h.apart a ha b hb hwa hwb hne).notMem hta
  · intro start finish res hlt hres
    exact oeeSql_availability h (toSql_mono hlt.le) hres

/-- A press with three cycles in its first ten seconds. -/
def pressFloor : Database where
  workCenters := ⟨[{ id := "press" }], by decide⟩
  machineEvents := ⟨[⟨"e0", 0, "press", none, "cycle"⟩, ⟨"e1", 5000000, "press", none, "cycle"⟩,
    ⟨"e2", 10000000, "press", none, "cycle"⟩], by decide⟩

/-- Ids of the shape `a`, `aa`, `aaa`, one family for each letter. -/
def letterIds (letter : Char) (i : ℕ) : String := String.ofList (List.replicate (i + 1) letter)

/-- The first hundred seconds, and thirty of them once more. -/
def pressRun : List RecomputeOp :=
  [.recompute "press" 0 100000000000 (letterIds 'a'),
    .recompute "press" 50000000000 80000000000 (letterIds 'b')]

theorem pressFloor_availability :
    ∃ res, oeeSql (reached pressFloor pressRun) "press" (toSql 0) (toSql 100000000000) = .ok res ∧
      0 ≤ res.availability ∧ res.availability ≤ 1 := by
  obtain ⟨res, hres⟩ : ∃ res, oeeSql (reached pressFloor pressRun) "press" (toSql 0)
      (toSql 100000000000) = .ok res := ⟨_, rfl⟩
  refine ⟨res, hres, ?_⟩
  have hsettled : Along recomputeStep (SettledStep "press") (underived pressFloor) pressRun := by
    decide +kernel
  exact (reached_states_disjoint pressFloor pressRun "press" hsettled 2).2.2 0 100000000000 res
    (by decide) hres

/-- Eight hundred nanoseconds are stored as an empty interval. -/
theorem recompute_stores_empty :
    ¬ ∀ (db : Database) (ops : List RecomputeOp) (wc : String),
        ∀ r ∈ (reached db ops).machineStates, r.workCenterId = wc → r.startTs < r.endTs := by
  intro hall
  have hempty : ∃ r ∈ (reached pressFloor
      [.recompute "press" 100 900 (letterIds 'a')]).machineStates.rows,
      r.workCenterId = "press" ∧ ¬ r.startTs < r.endTs := by decide +kernel
  obtain ⟨r, hr, hwc, hnot⟩ := hempty
  exact hnot (hall _ _ _ r hr hwc)

end Disjoint

section Frame

variable {db db' : Database} {wc : String} {start finish : Int} {ids : ℕ → String}
  {n : ℕ × ℕ}

/-- The state recorded for a work center at an instant. -/
def stateAt (db : Database) (wc : String) (t : Int) : Option String :=
  (db.machineStates.rows.find? fun r => r.workCenterId = wc ∧ t ∈ decoded r.span).map
    MachineStateRow.state

/-- An unclassified downtime event covers the instant. -/
def UnclassifiedAt (db : Database) (wc : String) (t : Int) : Prop :=
  ∃ r ∈ db.downtimeEvents, r.workCenterId = wc ∧ r.reasonId = none ∧ t ∈ decoded r.span

/-- The part of a span outside a window. -/
def outside (window s : Span Int) : Int := s.length - max 0 (s.clamp window).length

def runningRows (db : Database) (wc : String) : List MachineStateRow :=
  db.machineStates.rows.filter fun r => r.workCenterId = wc ∧ r.state = stateStr .running

/-- The running time recorded outside a window. -/
def runningOutside (db : Database) (wc : String) (window : Span Int) : Int :=
  ((runningRows db wc).map fun r => outside window (decoded r.span)).sum

/-- What is derived for a work center outside a window is the same. -/
structure FrameKept (db db' : Database) (wc : String) (window : Span Int) : Prop where
  state : ∀ t, t < window.lo ∨ window.hi ≤ t → stateAt db' wc t = stateAt db wc t
  downtime : ∀ t, t < window.lo ∨ window.hi ≤ t →
    (UnclassifiedAt db' wc t ↔ UnclassifiedAt db wc t)
  running : runningOutside db' wc window = runningOutside db wc window

/-- No row of the work center has an edge of the window strictly inside. -/
def NoStraddle (db : Database) (wc : String) (window : Span Int) : Prop :=
  ∀ r ∈ db.machineStates, r.workCenterId = wc → ¬ r.span.Straddles window

/-- What the microseconds of the bound window reach beyond the window is recorded as the stored
pulses and planned stops tell it for the nearest instant of the window. -/
structure EdgesRecorded (db : Database) (wc : String) (start finish : Int) : Prop where
  state : ∀ t ∈ decoded ⟨toSql start, toSql finish⟩, t < start ∨ finish ≤ t →
    stateAt db wc t = some (stateStr (toldState db wc start finish (nearest start finish t)))
  downtime : ∀ t ∈ decoded ⟨toSql start, toSql finish⟩, t < start ∨ finish ≤ t →
    (UnclassifiedAt db wc t ↔ ToldDowntime db wc start finish (nearest start finish t))

theorem mem_decoded_window {iv : StateInterval} (h : iv ∈ derivedStates db wc start finish)
    {t : Int} (ht : t ∈ decoded iv.span) : t ∈ decoded ⟨toSql start, toSql finish⟩ := by
  obtain ⟨hlo, -, hhi⟩ := derivedStates_bounds h
  rw [mem_decoded] at ht ⊢
  have hhi' : t / 1000 < iv.finish := ht.2
  exact ⟨hlo.trans ht.1, hhi'.trans_le hhi⟩

/-- A window of whole microseconds is the window that is bound. -/
theorem edgesRecorded_of_whole (db : Database) (wc : String) (m m' : Int) :
    EdgesRecorded db wc (ofSql m) (ofSql m') := by
  have hnone : ∀ t ∈ decoded ⟨toSql (ofSql m), toSql (ofSql m')⟩,
      ¬ (t < ofSql m ∨ ofSql m' ≤ t) := by
    intro t ht
    rw [toSql_ofSql, toSql_ofSql] at ht
    rw [not_or, not_lt, not_le]
    exact ht
  exact ⟨fun t ht hout => absurd hout (hnone t ht), fun t ht hout => absurd hout (hnone t ht)⟩

/-- A search whose hits all have one image finds the image of any of them. -/
theorem find?_map_eq_some {α β : Type*} {l : List α} {p : α → Bool} {f : α → β} {b : β}
    (huniq : ∀ x ∈ l, ∀ y ∈ l, p x = true → p y = true → f x = f y) :
    (l.find? p).map f = some b ↔ ∃ x ∈ l, p x = true ∧ f x = b := by
  rw [Option.map_eq_some_iff]
  constructor
  · rintro ⟨x, hfind, rfl⟩
    exact ⟨x, List.mem_of_find?_eq_some hfind, List.find?_some hfind, rfl⟩
  · rintro ⟨x, hx, hpx, rfl⟩
    obtain ⟨y, hy⟩ : ∃ y, l.find? p = some y := by
      rw [← Option.isSome_iff_exists]
      exact List.find?_isSome.mpr ⟨x, hx, hpx⟩
    exact ⟨y, hy, huniq y (List.mem_of_find?_eq_some hy) x hx (List.find?_some hy) hpx⟩

/-- With disjoint intervals the recorded state is that of any row at the instant. -/
theorem stateAt_eq_some (h : StatesApart db wc) {t : Int} {s : String} :
    stateAt db wc t = some s ↔
      ∃ r ∈ db.machineStates, r.workCenterId = wc ∧ t ∈ decoded r.span ∧ r.state = s := by
  unfold stateAt
  rw [find?_map_eq_some]
  · simp only [decide_eq_true_eq, and_assoc, Table.mem_rows]
  · intro a ha b hb hta htb
    rw [decide_eq_true_eq] at hta htb
    by_contra hne
    have hab : a ≠ b := fun heq => hne (congrArg MachineStateRow.state heq)
    exact (h.apart a ha b hb hta.1 htb.1 hab).notMem (mem_decoded.mp hta.2) (mem_decoded.mp htb.2)

/-- Every downtime event is unclassified and sits on a machine state of its
work center. -/
def DowntimeDerived (db : Database) : Prop :=
  ∀ d ∈ db.downtimeEvents, d.reasonId = none ∧
    ∃ r ∈ db.machineStates, r.workCenterId = d.workCenterId ∧ r.span = d.span

theorem downtimeDerived_recompute (h : DowntimeDerived db)
    (hok : recomputeStates db wc start finish ids = .ok (db', n)) : DowntimeDerived db' := by
  intro d hd
  rcases (mem_downtimeEvents_of_ok hok).mp hd with ⟨hd, hkept⟩ | hnew
  · -- the state under a kept event lies apart from the window too
    obtain ⟨hreason, r, hr, hwc, hspan⟩ := h d hd
    refine ⟨hreason, r, (mem_machineStates_of_ok hok).mpr (Or.inl ⟨hr, ?_⟩), hwc, hspan⟩
    intro hrwc
    rw [hspan]
    exact hkept (hwc ▸ hrwc) hreason
  · obtain ⟨iv, hiv, hwc, hreason, hspan⟩ := mem_newDowntime hnew
    obtain ⟨r, hr, hrwc, -, hrspan⟩ := exists_newStates ids (mem_detectedStops hiv)
    refine ⟨hreason, r, (mem_machineStates_of_ok hok).mpr (Or.inr hr), ?_, ?_⟩
    · rw [hrwc, hwc]
    · rw [hrspan, hspan]

theorem downtimeDerived_reached (db : Database) (ops : List RecomputeOp) :
    DowntimeDerived (reached db ops) := by
  refine reached_induction (P := DowntimeDerived) db ops ?_ ?_ ?_
  · intro d hd
    exact absurd hd (Table.notMem_empty d)
  · intro db db' wc start finish ids n h hok
    exact downtimeDerived_recompute h hok
  · intro db machineEvents plannedStops h
    exact h

/-- A span that straddles no edge and contains an instant outside the window
lies apart from the window. -/
theorem apart_of_mem_outside {s window : Span Int} (hs : ¬ s.Straddles window) {t : Int}
    (ht : t ∈ s) (hout : t ∉ window) : Span.Apart s window := by
  rw [← Span.not_overlaps_iff]
  intro hov
  obtain ⟨hlo, hhi⟩ := hov.within hs
  exact hout ⟨hlo.trans ht.1, ht.2.trans_le hhi⟩

/-- In the microseconds of the bound window the recorded state is the told one, outside of
them the one that rows apart from it record. -/
theorem stateAt_of_ok (h : StatesApart db wc)
    (hok : recomputeStates db wc start finish ids = .ok (db', n)) (t : Int) :
    (t ∈ decoded ⟨toSql start, toSql finish⟩ →
      stateAt db' wc t =
        some (stateStr (toldState db wc start finish (nearest start finish t)))) ∧
    (t ∉ decoded ⟨toSql start, toSql finish⟩ → ∀ s, stateAt db' wc t = some s ↔
      ∃ r ∈ db.machineStates, Span.Apart r.span ⟨toSql start, toSql finish⟩ ∧
        r.workCenterId = wc ∧ t ∈ decoded r.span ∧ r.state = s) := by
  constructor
  · intro ht
    obtain ⟨iv, hiv, htiv⟩ := exists_derived db wc ht
    obtain ⟨r, hr, hwc, hstate, hspan⟩ := exists_newStates ids hiv
    rw [stateAt_eq_some (statesApart_recompute h hok), toldState_nearest hiv htiv]
    exact ⟨r, (mem_machineStates_of_ok hok).mpr (Or.inr hr), hwc, hspan ▸ htiv, hstate⟩
  · intro ht s
    rw [stateAt_eq_some (statesApart_recompute h hok)]
    constructor
    · rintro ⟨r, hr, hwc, htr, hs⟩
      rcases (mem_machineStates_of_ok hok).mp hr with ⟨hr, hapart⟩ | hnew
      · exact ⟨r, hr, hapart hwc, hwc, htr, hs⟩
      · obtain ⟨iv, hiv, -, -, hspan⟩ := mem_newStates hnew
        exact absurd (mem_decoded_window hiv (hspan ▸ htr)) ht
    · rintro ⟨r, hr, hapart, hwc, htr, hs⟩
      exact ⟨r, (mem_machineStates_of_ok hok).mpr (Or.inl ⟨hr, fun _ => hapart⟩), hwc, htr, hs⟩

theorem unclassifiedAt_of_ok (hok : recomputeStates db wc start finish ids = .ok (db', n))
    (t : Int) :
    (t ∈ decoded ⟨toSql start, toSql finish⟩ →
      (UnclassifiedAt db' wc t ↔ ToldDowntime db wc start finish (nearest start finish t))) ∧
    (t ∉ decoded ⟨toSql start, toSql finish⟩ → (UnclassifiedAt db' wc t ↔
      ∃ d ∈ db.downtimeEvents, Span.Apart d.span ⟨toSql start, toSql finish⟩ ∧
        d.workCenterId = wc ∧ d.reasonId = none ∧ t ∈ decoded d.span)) := by
  constructor
  · intro ht
    rw [toldDowntime_nearest ht]
    constructor
    · rintro ⟨d, hd, hwc, hreason, htd⟩
      rcases (mem_downtimeEvents_of_ok hok).mp hd with ⟨-, hapart⟩ | hnew
      · exact absurd (mem_decoded.mp ht) ((hapart hwc hreason).notMem (mem_decoded.mp htd))
      · obtain ⟨iv, hiv, -, -, hspan⟩ := mem_newDowntime hnew
        exact ⟨iv, hiv, hspan ▸ htd⟩
    · rintro ⟨iv, hiv, htiv⟩
      obtain ⟨d, hd, hwc, hspan⟩ := exists_newDowntime ids hiv
      exact ⟨d, (mem_downtimeEvents_of_ok hok).mpr (Or.inr hd), hwc,
        (unclassified_newDowntime hd).1, hspan ▸ htiv⟩
  · intro ht
    constructor
    · rintro ⟨d, hd, hwc, hreason, htd⟩
      rcases (mem_downtimeEvents_of_ok hok).mp hd with ⟨hd, hapart⟩ | hnew
      · exact ⟨d, hd, hapart hwc hreason, hwc, hreason, htd⟩
      · obtain ⟨iv, hiv, -, -, hspan⟩ := mem_newDowntime hnew
        exact absurd (mem_decoded_window (mem_detectedStops hiv) (hspan ▸ htd)) ht
    · rintro ⟨d, hd, hapart, hwc, hreason, htd⟩
      exact ⟨d, (mem_downtimeEvents_of_ok hok).mpr (Or.inl ⟨hd, fun _ _ => hapart⟩), hwc, hreason,
        htd⟩

theorem stateAt_kept (h : StatesApart db wc)
    (hok : recomputeStates db wc start finish ids = .ok (db', n))
    (hns : NoStraddle db wc ⟨toSql start, toSql finish⟩) {t : Int}
    (hout : t ∉ decoded ⟨toSql start, toSql finish⟩) : stateAt db' wc t = stateAt db wc t := by
  apply Option.ext
  intro s
  rw [(stateAt_of_ok h hok t).2 hout, stateAt_eq_some h]
  constructor
  · rintro ⟨r, hr, -, hrest⟩
    exact ⟨r, hr, hrest⟩
  · rintro ⟨r, hr, hwc, ht, hs⟩
    refine ⟨r, hr, ?_, hwc, ht, hs⟩
    exact apart_of_mem_outside (hns r hr hwc) (mem_decoded.mp ht) fun hin =>
      hout (mem_decoded.mpr hin)

theorem unclassifiedAt_kept (h : DowntimeDerived db)
    (hok : recomputeStates db wc start finish ids = .ok (db', n))
    (hns : NoStraddle db wc ⟨toSql start, toSql finish⟩) {t : Int}
    (hout : t ∉ decoded ⟨toSql start, toSql finish⟩) :
    UnclassifiedAt db' wc t ↔ UnclassifiedAt db wc t := by
  rw [(unclassifiedAt_of_ok hok t).2 hout]
  constructor
  · rintro ⟨d, hd, -, hrest⟩
    exact ⟨d, hd, hrest⟩
  · rintro ⟨d, hd, hwc, hreason, ht⟩
    obtain ⟨-, r, hr, hrwc, hspan⟩ := h d hd
    have hns' := hns r hr (hrwc.trans hwc)
    rw [hspan] at hns'
    refine ⟨d, hd, ?_, hwc, hreason, ht⟩
    exact apart_of_mem_outside hns' (mem_decoded.mp ht) fun hin => hout (mem_decoded.mpr hin)

/-- The running time outside a window counts the instants there that are recorded as running. -/
theorem runningOutside_eq_card (h : StatesApart db wc) (window : Span Int) :
    runningOutside db wc window =
      ((covered ((runningRows db wc).map fun r => decoded r.span) \ window.instants).card : ℤ) := by
  have hrow : ∀ r ∈ runningRows db wc, r ∈ db.machineStates ∧ r.workCenterId = wc := by
    intro r hr
    obtain ⟨hr, hrun⟩ := List.mem_filter.mp hr
    rw [decide_eq_true_eq] at hrun
    exact ⟨hr, hrun.1⟩
  have hapart : ((runningRows db wc).map fun r => decoded r.span).Pairwise Span.Apart := by
    rw [List.pairwise_map]
    apply (db.machineStates.nodup_rows.filter _).pairwise_of_forall_ne
    intro a ha b hb hne
    obtain ⟨ha, hwa⟩ := hrow a ha
    obtain ⟨hb, hwb⟩ := hrow b hb
    exact (h.apart a ha b hb hwa hwb hne).map ofSql_mono
  rw [← sum_card_sdiff hapart, List.map_map, runningOutside]
  congr 1
  apply List.map_congr_left
  intro r hr
  obtain ⟨hr, hwc⟩ := hrow r hr
  have hle : (decoded r.span).lo ≤ (decoded r.span).hi := ofSql_mono (h.proper r hr hwc)
  exact (Span.card_sdiff hle window).symm

theorem mem_running (h : StatesApart db wc) {t : Int} :
    t ∈ covered ((runningRows db wc).map fun r => decoded r.span) ↔
      stateAt db wc t = some (stateStr .running) := by
  rw [mem_covered, stateAt_eq_some h]
  simp only [runningRows, List.mem_map, List.mem_filter, decide_eq_true_eq, Table.mem_rows]
  constructor
  · rintro ⟨s, ⟨r, ⟨hr, hwc, hrun⟩, rfl⟩, ht⟩
    exact ⟨r, hr, hwc, ht, hrun⟩
  · rintro ⟨r, hr, hwc, ht, hrun⟩
    exact ⟨_, ⟨r, ⟨hr, hwc, hrun⟩, rfl⟩, ht⟩

/-- The running time outside a window depends on the states recorded there. -/
theorem runningOutside_eq {window : Span Int} (h : StatesApart db wc) (h' : StatesApart db' wc)
    (hstate : ∀ t, t < window.lo ∨ window.hi ≤ t → stateAt db' wc t = stateAt db wc t) :
    runningOutside db' wc window = runningOutside db wc window := by
  rw [runningOutside_eq_card h, runningOutside_eq_card h']
  congr 2
  ext t
  simp only [Finset.mem_sdiff, mem_running h, mem_running h', Span.mem_instants]
  apply and_congr_left
  intro hout
  have hout' : t < window.lo ∨ window.hi ≤ t := by
    rw [Span.mem_def, not_and_or, not_le, not_lt] at hout
    exact hout
  rw [hstate t hout']

/-- A straddling row is deleted whole, and with it the state recorded at an
instant outside the window. -/
theorem noStraddle_of_stateAt (h : StatesApart db wc) (hlt : start < finish)
    (hok : recomputeStates db wc start finish ids = .ok (db', n))
    (hstate : ∀ t, t < start ∨ finish ≤ t → stateAt db' wc t = stateAt db wc t) :
    NoStraddle db wc ⟨toSql start, toSql finish⟩ := by
  intro r hr hwc hs
  obtain ⟨m, hm, hmout⟩ := hs.exists_outside
  have hstart := toSql_bounds start
  have hfinish := toSql_bounds finish
  -- an instant of the microsecond `m` lies outside the window too
  obtain ⟨t, hcell, hout⟩ : ∃ t, t / 1000 = m ∧ (t < start ∨ finish ≤ t) := by
    unfold ofSql at hstart hfinish
    rcases hmout with hbefore | hafter
    · exact ⟨1000 * m, by omega, Or.inl (by dsimp only at hbefore; omega)⟩
    · exact ⟨1000 * m + 999, by omega, Or.inr (by dsimp only at hafter; omega)⟩
  have htr : t ∈ decoded r.span := mem_decoded.mpr (hcell ▸ hm)
  have hbound : t ∉ decoded ⟨toSql start, toSql finish⟩ := by
    rw [mem_decoded, hcell, Span.mem_def, not_and_or, not_le, not_lt]
    exact hmout
  have hbefore : stateAt db wc t = some r.state :=
    (stateAt_eq_some h).mpr ⟨r, hr, hwc, htr, rfl⟩
  rw [← hstate t hout, (stateAt_of_ok h hok t).2 hbound] at hbefore
  obtain ⟨u, hu, hapart, huwc, htu, -⟩ := hbefore
  -- the row still found at `t` can only be `r`, which overlaps the window
  have hur : u = r := by
    by_contra hne
    exact (h.apart u hu r hr huwc hwc hne).notMem (mem_decoded.mp htu) (mem_decoded.mp htr)
  rw [hur] at hapart
  exact Span.not_overlaps_iff.mpr hapart (hs.overlaps (toSql_mono hlt.le))

/-- A successful recompute of a non-empty window keeps what is derived outside
the window exactly when no stored interval straddles an edge of the bound window and the
microseconds of its edges are recorded as they are derived. -/
theorem recompute_frame_iff (db db' : Database) (ops : List RecomputeOp) (wc : String)
    (start finish : Int) (ids : ℕ → String) (n : ℕ × ℕ) (hlt : start < finish)
    (hok : recomputeStates (reached db ops) wc start finish ids = .ok (db', n)) :
    FrameKept (reached db ops) db' wc ⟨start, finish⟩ ↔
      NoStraddle (reached db ops) wc ⟨toSql start, toSql finish⟩ ∧
        EdgesRecorded (reached db ops) wc start finish := by
  have hapart := statesApart_reached db ops wc
  constructor
  · intro hkept
    refine ⟨noStraddle_of_stateAt hapart hlt hok hkept.state, ?_, ?_⟩
    · intro t ht hout
      rw [← hkept.state t hout, (stateAt_of_ok hapart hok t).1 ht]
    · intro t ht hout
      rw [← hkept.downtime t hout, (unclassifiedAt_of_ok hok t).1 ht]
  · rintro ⟨hns, hedges⟩
    have hstate : ∀ t, t < start ∨ finish ≤ t →
        stateAt db' wc t = stateAt (reached db ops) wc t := by
      intro t hout
      by_cases ht : t ∈ decoded ⟨toSql start, toSql finish⟩
      · rw [(stateAt_of_ok hapart hok t).1 ht, hedges.state t ht hout]
      · exact stateAt_kept hapart hok hns ht
    refine ⟨hstate, ?_, runningOutside_eq hapart (statesApart_recompute hapart hok) hstate⟩
    intro t hout
    by_cases ht : t ∈ decoded ⟨toSql start, toSql finish⟩
    · rw [(unclassifiedAt_of_ok hok t).1 ht, hedges.downtime t ht hout]
    · exact unclassifiedAt_kept (downtimeDerived_reached db ops) hok hns ht

/-- The state recorded ten seconds in is lost when the window from second 50 to
second 80 is derived again: its only row spans both edges. -/
theorem recompute_drops_straddling :
    ¬ ∀ (db db' : Database) (ops : List RecomputeOp) (wc : String) (start finish : Int)
        (ids : ℕ → String) (n : ℕ × ℕ), start < finish →
        recomputeStates (reached db ops) wc start finish ids = .ok (db', n) →
        FrameKept (reached db ops) db' wc ⟨start, finish⟩ := by
  intro hall
  obtain ⟨db', n, hok, hafter⟩ : ∃ db' n,
      recomputeStates (reached pressFloor (pressRun.take 1)) "press" 50000000000 80000000000
        (letterIds 'b') = .ok (db', n) ∧ stateAt db' "press" 40000000000 = none :=
    ⟨_, _, rfl, by decide +kernel⟩
  have hbefore : stateAt (reached pressFloor (pressRun.take 1)) "press" 40000000000 =
      some "micro_stop" := by decide +kernel
  have hkept := hall _ _ _ _ _ _ _ _ (by decide) hok
  rw [hkept.state 40000000000 (Or.inl (by decide)), hbefore] at hafter
  cases hafter

/-- Deriving the same window again straddles nothing. -/
theorem recompute_same_window_frame :
    ∃ db' n,
      recomputeStates (reached pressFloor (pressRun.take 1)) "press" 0 100000000000
        (letterIds 'b') = .ok (db', n) ∧
      FrameKept (reached pressFloor (pressRun.take 1)) db' "press" ⟨0, 100000000000⟩ := by
  obtain ⟨db', n, hok⟩ : ∃ db' n,
      recomputeStates (reached pressFloor (pressRun.take 1)) "press" 0 100000000000
        (letterIds 'b') = .ok (db', n) := ⟨_, _, rfl⟩
  refine ⟨db', n, hok, ?_⟩
  apply (recompute_frame_iff pressFloor db' _ "press" 0 100000000000 (letterIds 'b') n
    (by decide) hok).mpr
  have hrows : ∀ r ∈ (reached pressFloor (pressRun.take 1)).machineStates.rows,
      r.workCenterId = "press" → ¬ r.span.Straddles ⟨toSql 0, toSql 100000000000⟩ := by
    decide +kernel
  exact ⟨hrows, edgesRecorded_of_whole _ "press" 0 100000000⟩

end Frame

end ElectronixMes.Derived
