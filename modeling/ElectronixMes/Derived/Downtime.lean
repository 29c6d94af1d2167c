import ElectronixMes.Derived.MachineStates
import ElectronixMes.Transition.Run
import ElectronixMes.Db.RepoOrders
import ElectronixMes.Db.RepoAnalytics

/-!
# Downtime over whole runs

A run recomputes windows, classifies stops and splits them. Classification and
splitting keep the events of a work center disjoint. A recompute keeps the
classified rows and regenerates every stop it detects, so it keeps them
disjoint exactly when no classified row overlaps a stop it detects.
-/

namespace ElectronixMes.Derived

open Db ElectronixMes.Core Edge Relational Timeline Transition

/-- One step of a serial run on a work center. -/
inductive DowntimeOp where
  | recompute (start finish : Int) (ids : ℕ → String)
  | classify (id reasonId classifiedBy : String) (now : Int)
  | split (id : String) (splitAt : Int) (firstReason secondReason : Option String)
      (classifiedBy newId : String) (now : Int)
  | store (machineEvents : Table MachineEventRow) (plannedStops : Table PlannedStopRow)

def downtimeStep (wc : String) (db : Database) : DowntimeOp → Database
  | .recompute start finish ids => afterRecompute db wc start finish ids
  | .classify id reasonId classifiedBy now =>
      match classifyDowntime db id reasonId classifiedBy now with
      | .ok res => res.1
      | .error _ => db
  | .split id splitAt firstReason secondReason classifiedBy newId now =>
      match splitDowntime db id splitAt firstReason secondReason classifiedBy newId now with
      | .ok res => res.1
      | .error _ => db
  | .store machineEvents plannedStops => { db with machineEvents, plannedStops }

/-- The database a run reaches from one without downtime rows. -/
def downtimeReached (wc : String) (db : Database) (ops : List DowntimeOp) : Database :=
  ops.foldl (downtimeStep wc) { db with downtimeEvents := ∅ }

/-- A recompute detects no stop where a classified row already stands. -/
def CleanStep (wc : String) (db : Database) : DowntimeOp → Prop
  | .recompute start finish _ =>
      ∀ r ∈ db.downtimeEvents.rows, r.workCenterId = wc → r.reasonId ≠ none →
        ∀ iv ∈ detectedStops db wc start finish, ¬ r.span.Overlaps iv.span
  | _ => True

instance (wc : String) (db : Database) (op : DowntimeOp) : Decidable (CleanStep wc db op) :=
  match op with
  | .recompute start finish _ => inferInstanceAs (Decidable
      (∀ r ∈ db.downtimeEvents.rows, r.workCenterId = wc → r.reasonId ≠ none →
        ∀ iv ∈ detectedStops db wc start finish, ¬ r.span.Overlaps iv.span))
  | .classify .. => isTrue trivial
  | .split .. => isTrue trivial
  | .store .. => isTrue trivial

/-- The events all belong to the work center, are not reversed and lie apart. -/
structure DowntimeApart (wc : String) (t : Table DowntimeEventRow) : Prop where
  own : ∀ r ∈ t, r.workCenterId = wc
  proper : ∀ r ∈ t, r.startTs ≤ r.endTs
  apart : ∀ a ∈ t, ∀ b ∈ t, a ≠ b → Span.Apart a.span b.span

section Steps

variable {wc : String} {db db' : Database} {t t' : Table DowntimeEventRow}
  {start finish : Int} {ids : ℕ → String} {n : ℕ × ℕ}

/-- Rewriting a row to a span inside its own keeps the events apart. -/
theorem DowntimeApart.put (h : DowntimeApart wc t) {old r : DowntimeEventRow} (hold : old ∈ t)
    (hid : r.id = old.id) (hwc : r.workCenterId = old.workCenterId)
    (hproper : r.startTs ≤ r.endTs) (hlo : old.startTs ≤ r.startTs)
    (hhi : r.endTs ≤ old.endTs) : DowntimeApart wc (t.put r) := by
  have hother : ∀ x ∈ t, x.id ≠ r.id → Span.Apart x.span r.span := by
    intro x hx hne
    have hxold : x ≠ old := fun heq => hne (heq ▸ hid.symm)
    exact (h.apart x hx old hold hxold).mono_right hlo hhi
  constructor
  · intro x hx
    rcases Table.mem_put.mp hx with rfl | ⟨hx, -⟩
    · exact hwc.trans (h.own old hold)
    · exact h.own x hx
  · intro x hx
    rcases Table.mem_put.mp hx with rfl | ⟨hx, -⟩
    · exact hproper
    · exact h.proper x hx
  · intro a ha b hb hne
    rcases Table.mem_put.mp ha with rfl | ⟨hat, hak⟩ <;>
    rcases Table.mem_put.mp hb with rfl | ⟨hbt, hbk⟩
    · exact absurd rfl hne
    · exact (hother b hbt hbk).symm
    · exact hother a hat hak
    · exact h.apart a hat b hbt hne

/-- Inserting a row apart from all others keeps the events apart. -/
theorem DowntimeApart.insert (h : DowntimeApart wc t) {r : DowntimeEventRow}
    (hins : t.insert? r = some t') (hwc : r.workCenterId = wc)
    (hproper : r.startTs ≤ r.endTs) (hapart : ∀ x ∈ t, Span.Apart x.span r.span) :
    DowntimeApart wc t' := by
  constructor
  · intro x hx
    rcases (Table.mem_insert? hins).mp hx with hx | rfl
    · exact h.own x hx
    · exact hwc
  · intro x hx
    rcases (Table.mem_insert? hins).mp hx with hx | rfl
    · exact h.proper x hx
    · exact hproper
  · intro a ha b hb hne
    rcases (Table.mem_insert? hins).mp ha with ha | rfl <;>
    rcases (Table.mem_insert? hins).mp hb with hb | rfl
    · exact h.apart a ha b hb hne
    · exact hapart a ha
    · exact (hapart b hb).symm
    · exact absurd rfl hne

theorem downtimeApart_classify (h : DowntimeApart wc db.downtimeEvents)
    {id reasonId classifiedBy : String} {now : Int} {res : Database × DowntimeEventRow}
    (hok : classifyDowntime db id reasonId classifiedBy now = .ok res) :
    DowntimeApart wc res.1.downtimeEvents := by
  obtain ⟨old, hold, hid, hwc, hstart, hend, hdb⟩ := classifyDowntime_ok hok
  rw [hdb]
  refine h.put hold hid hwc ?_ hstart.ge hend.le
  rw [hstart, hend]
  exact h.proper old hold

theorem downtimeApart_split (h : DowntimeApart wc db.downtimeEvents) {id : String}
    {splitAt : Int} {firstReason secondReason : Option String} {classifiedBy newId : String}
    {now : Int} {res : Database × DowntimeEventRow × DowntimeEventRow}
    (hok : splitDowntime db id splitAt firstReason secondReason classifiedBy newId now =
      .ok res) :
    DowntimeApart wc res.1.downtimeEvents := by
  obtain ⟨old, hold, downtimeEvents, hlo, hhi, hfirst, hsecond, hins, hdb⟩ :=
    splitDowntime_ok hok
  have hput : DowntimeApart wc (db.downtimeEvents.put res.2.1) := by
    rw [hfirst]
    exact h.put hold rfl rfl hlo le_rfl hhi
  rw [hdb]
  refine hput.insert hins ?_ ?_ ?_
  · rw [hsecond]
    exact h.own old hold
  · rw [hsecond]
    exact hhi
  · -- the second half starts where the first ends and lies inside the old row
    intro x hx
    rw [hsecond]
    rcases Table.mem_put.mp hx with rfl | ⟨hx, hne⟩
    · rw [hfirst]
      exact Or.inl le_rfl
    · have hxold : x ≠ old := by
        rintro rfl
        exact hne (by rw [hfirst]; rfl)
      exact (h.apart x hx old hold hxold).mono_right hlo le_rfl

/-- The rows a recompute keeps lie apart from those it inserts. -/
theorem downtimeApart_recompute (h : DowntimeApart wc db.downtimeEvents)
    (hok : recomputeStates db wc start finish ids = .ok (db', n))
    (hclean : CleanStep wc db (.recompute start finish ids)) :
    DowntimeApart wc db'.downtimeEvents := by
  have hcross : ∀ a ∈ db.downtimeEvents,
      (a.workCenterId = wc → a.reasonId = none →
        Span.Apart a.span ⟨toSql start, toSql finish⟩) →
      ∀ b ∈ newDowntime db wc start finish ids, Span.Apart a.span b.span := by
    intro a ha hkept b hb
    obtain ⟨iv, hiv, -, -, hspan⟩ := mem_newDowntime hb
    obtain ⟨hlo, -, hhi⟩ := derivedStates_bounds (mem_detectedStops hiv)
    rw [hspan]
    by_cases hreason : a.reasonId = none
    · exact (hkept (h.own a ha) hreason).mono_right hlo hhi
    · exact Span.not_overlaps_iff.mp (hclean a ha (h.own a ha) hreason iv hiv)
  constructor
  · intro r hr
    rcases (mem_downtimeEvents_of_ok hok).mp hr with ⟨hr, -⟩ | hnew
    · exact h.own r hr
    · obtain ⟨-, -, hwc, -, -⟩ := mem_newDowntime hnew
      exact hwc
  · intro r hr
    rcases (mem_downtimeEvents_of_ok hok).mp hr with ⟨hr, -⟩ | hnew
    · exact h.proper r hr
    · obtain ⟨iv, hiv, -, -, hspan⟩ := mem_newDowntime hnew
      have hle : r.span.lo ≤ r.span.hi :=
        hspan ▸ (derivedStates_bounds (mem_detectedStops hiv)).2.1
      exact hle
  · intro a ha b hb hne
    rcases (mem_downtimeEvents_of_ok hok).mp ha with ⟨ha, hak⟩ | ha <;>
    rcases (mem_downtimeEvents_of_ok hok).mp hb with ⟨hb, hbk⟩ | hb
    · exact h.apart a ha b hb hne
    · exact hcross a ha hak b hb
    · exact (hcross b hb hbk a ha).symm
    · exact newDowntime_pairwise.forall ha hb hne

/-- A successful recompute that is not clean counts the common time twice. -/
theorem overlap_of_not_cleanStep
    (hok : recomputeStates db wc start finish ids = .ok (db', n))
    (hdirty : ¬ CleanStep wc db (.recompute start finish ids)) :
    ∃ a ∈ db'.downtimeEvents, ∃ b ∈ db'.downtimeEvents, a ≠ b ∧ a.workCenterId = wc ∧
      b.workCenterId = wc ∧ a.span.Overlaps b.span := by
  simp only [CleanStep, not_forall, not_not] at hdirty
  obtain ⟨r, hr, hwc, hreason, iv, hiv, hov⟩ := hdirty
  obtain ⟨new, hnew, hnewwc, hspan⟩ := exists_newDowntime ids hiv
  obtain ⟨-, -, -, hnone, -⟩ := mem_newDowntime hnew
  refine ⟨r, ?_, new, ?_, ?_, hwc, hnewwc, ?_⟩
  · exact (mem_downtimeEvents_of_ok hok).mpr (Or.inl ⟨hr, fun _ h => absurd h hreason⟩)
  · exact (mem_downtimeEvents_of_ok hok).mpr (Or.inr hnew)
  · rintro rfl
    exact hreason hnone
  · rw [hspan]
    exact hov

theorem downtimeApart_step (h : DowntimeApart wc db.downtimeEvents) {op : DowntimeOp}
    (hclean : CleanStep wc db op) :
    DowntimeApart wc (downtimeStep wc db op).downtimeEvents := by
  cases op with
  | recompute start finish ids =>
      unfold downtimeStep afterRecompute
      dsimp only
      cases hok : recomputeStates db wc start finish ids with
      | error e => exact h
      | ok res => exact downtimeApart_recompute h hok hclean
  | classify id reasonId classifiedBy now =>
      unfold downtimeStep
      dsimp only
      cases hok : classifyDowntime db id reasonId classifiedBy now with
      | error e => exact h
      | ok res => exact downtimeApart_classify h hok
  | split id splitAt firstReason secondReason classifiedBy newId now =>
      unfold downtimeStep
      dsimp only
      cases hok : splitDowntime db id splitAt firstReason secondReason classifiedBy newId now with
      | error e => exact h
      | ok res => exact downtimeApart_split h hok
  | store machineEvents plannedStops => exact h

end Steps

section Runs

variable {wc : String} {db : Database}

/-- With disjoint events the sum of a day is the time that some event covers. -/
theorem DowntimeApart.sum_dayRows (h : DowntimeApart wc db.downtimeEvents)
    (start finish day : Int) :
    ((dayRows db start finish day).map fun r => r.span.length).sum =
      ((covered ((dayRows db start finish day).map DowntimeEventRow.span)).card : ℤ) := by
  have hsub : (dayRows db start finish day).Sublist db.downtimeEvents.rows :=
    List.filter_sublist.trans List.filter_sublist
  have hpair : (dayRows db start finish day).Pairwise fun a b => Span.Apart a.span b.span := by
    apply (db.downtimeEvents.nodup_rows.sublist hsub).pairwise_of_forall_ne
    intro a ha b hb hne
    exact h.apart a (hsub.subset ha) b (hsub.subset hb) hne
  rw [← sum_length_eq_card]
  · rw [List.map_map]
    rfl
  · intro s hs
    obtain ⟨r, hr, rfl⟩ := List.mem_map.mp hs
    exact h.proper r (hsub.subset hr)
  · exact List.pairwise_map.mpr hpair

/-- In every state of a run whose recomputes are all clean, no instant lies in
two events, and each daily total is the stopped time of that day's events,
rounded to the second. -/
theorem downtime_disjoint_of_cleanRun (wc : String) (db : Database) (ops : List DowntimeOp)
    (hclean : Along (downtimeStep wc) (CleanStep wc) { db with downtimeEvents := ∅ } ops)
    (k : ℕ) :
    (∀ a ∈ (downtimeReached wc db (ops.take k)).downtimeEvents,
      ∀ b ∈ (downtimeReached wc db (ops.take k)).downtimeEvents, a ≠ b →
        ∀ t, a.startTs ≤ t ∧ t < a.endTs → ¬ (b.startTs ≤ t ∧ t < b.endTs)) ∧
    (∀ start finish, ∀ p ∈ downtimeTrend (downtimeReached wc db (ops.take k)) start finish,
      p.2 = roundSeconds ((covered ((dayRows (downtimeReached wc db (ops.take k))
        start finish p.1).map DowntimeEventRow.span)).card : ℤ)) := by
  have hinit : DowntimeApart wc (∅ : Table DowntimeEventRow) := by
    constructor <;> intro r hr <;> exact absurd hr (Table.notMem_empty r)
  have happart : DowntimeApart wc (downtimeReached wc db (ops.take k)).downtimeEvents := by
    refine (hclean.take k).invariant (I := fun db => DowntimeApart wc db.downtimeEvents)
      ?_ hinit
    intro db op h hclean
    exact downtimeApart_step h hclean
  refine ⟨?_, ?_⟩
  · intro a ha b hb hne t hta
    exact (happart.apart a ha b hb hne).notMem hta
  · intro start finish p hp
    obtain ⟨day, -, rfl⟩ := List.mem_map.mp hp
    dsimp only
    rw [happart.sum_dayRows]

/-- The press with a reason and an operator to classify its stops. -/
def staffedFloor : Database :=
  { pressFloor with downtimeReasons := {"jam"}, users := {"operator"} }

/-- The stop of the first hundred seconds is classified and derived once more. -/
def reclassifiedRun : List DowntimeOp :=
  [.recompute 0 100000000000 (letterIds 'a'),
    .classify (letterIds 'a' 0) "jam" "operator" 0,
    .recompute 0 100000000000 (letterIds 'b')]

theorem classified_stop_counted_twice :
    ¬ ∀ (wc : String) (db : Database) (ops : List DowntimeOp),
        ∀ a ∈ (downtimeReached wc db ops).downtimeEvents,
        ∀ b ∈ (downtimeReached wc db ops).downtimeEvents, a ≠ b →
          ∀ t, a.startTs ≤ t ∧ t < a.endTs → ¬ (b.startTs ≤ t ∧ t < b.endTs) := by
  intro hall
  have hdup : ∃ a ∈ (downtimeReached "press" staffedFloor reclassifiedRun).downtimeEvents.rows,
      ∃ b ∈ (downtimeReached "press" staffedFloor reclassifiedRun).downtimeEvents.rows,
        a ≠ b ∧ (a.startTs ≤ 50000000 ∧ 50000000 < a.endTs) ∧
          b.startTs ≤ 50000000 ∧ 50000000 < b.endTs := by
    decide +kernel
  obtain ⟨a, ha, b, hb, hne, hta, htb⟩ := hdup
  exact hall "press" staffedFloor reclassifiedRun a ha b hb hne 50000000 hta htb

/-- The stop is split, its halves classified, and a later window derived. -/
def splitRun : List DowntimeOp :=
  [.recompute 0 100000000000 (letterIds 'a'),
    .split (letterIds 'a' 0) 50000000000 (some "jam") none "operator" "second" 0,
    .classify "second" "jam" "operator" 0,
    .recompute 100000000000 200000000000 (letterIds 'b')]

theorem splitRun_disjoint :
    (downtimeReached "press" staffedFloor splitRun).downtimeEvents.rows.length = 3 ∧
    (∀ a ∈ (downtimeReached "press" staffedFloor splitRun).downtimeEvents,
      ∀ b ∈ (downtimeReached "press" staffedFloor splitRun).downtimeEvents, a ≠ b →
        ∀ t, a.startTs ≤ t ∧ t < a.endTs → ¬ (b.startTs ≤ t ∧ t < b.endTs)) :=
  ⟨by decide +kernel,
    (downtime_disjoint_of_cleanRun "press" staffedFloor splitRun (by decide +kernel) 4).1⟩

end Runs

end ElectronixMes.Derived
