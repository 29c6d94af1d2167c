import ElectronixMes.Derived.Downtime

/-!
# Classification over whole runs

A classification is a reason with who gave it and when. Classifying a stop sets
all three columns. Splitting one sets the reason of its first half to the one
given, or to none, and then keeps the other two; the second half starts with the
reason given, or with none. So a run keeps its classifications exactly when no
classified stop is split without a reason for each half. A second half that is
stored as empty needs none.
-/

namespace ElectronixMes.Derived

open Db ElectronixMes.Core Edge Relational Timeline Transition

/-- One step of a serial run, with the work center that a recompute is of. -/
abbrev ShiftOp := String × DowntimeOp

def shiftStep (db : Database) (op : ShiftOp) : Database := downtimeStep op.1 db op.2

/-- Reason, author and time of a classification are all there or all missing. -/
structure Consistent (r : DowntimeEventRow) : Prop where
  author : r.reasonId.isSome ↔ r.classifiedBy.isSome
  time : r.reasonId.isSome ↔ r.classifiedAt.isSome

def AllConsistent (db : Database) : Prop := ∀ r ∈ db.downtimeEvents, Consistent r

/-- The reasons that a step gives for the row `id`. -/
def DowntimeOp.given : DowntimeOp → String → List String
  | .classify k reasonId _ _, id => if id = k then [reasonId] else []
  | .split k _ firstReason secondReason _ _ _, id =>
      if id = k then firstReason.toList ++ secondReason.toList else []
  | _, _ => []

/-- The rows that take the place of the row `id`: itself, and the second half of a split. -/
def DowntimeOp.pieces : DowntimeOp → String → List String
  | .split k _ _ _ _ newId _, id => if id = k then [id, newId] else [id]
  | _, id => [id]

/-- At each instant of a classified stop the step leaves the reason or puts one that it was
given in its place. -/
def Kept (db : Database) (op : ShiftOp) (db' : Database) : Prop :=
  ∀ r ∈ db.downtimeEvents, ∀ x, r.reasonId = some x → ∀ t, r.startTs ≤ t → t < r.endTs →
    ∃ r' ∈ db'.downtimeEvents, r'.id ∈ op.2.pieces r.id ∧ r'.workCenterId = r.workCenterId ∧
      r'.state = r.state ∧ (r'.startTs ≤ t ∧ t < r'.endTs) ∧
      ∃ y, r'.reasonId = some y ∧ (y = x ∨ y ∈ op.2.given r.id)

/-- A split that is not refused: the point lies inside, what the halves refer to exists and
the drawn id is new. -/
structure Accepted (db : Database) (old : DowntimeEventRow) (splitAt : Int)
    (firstReason secondReason : Option String) (classifiedBy newId : String) (now : Int) :
    Prop where
  lo : ofSql old.startTs < splitAt
  hi : splitAt < ofSql old.endTs
  first : downtimeRefs db (some old) (firstHalf old splitAt firstReason classifiedBy now) = .ok ()
  second : downtimeRefs db none
    (secondHalf old newId splitAt secondReason classifiedBy now) = .ok ()
  new : ∀ r ∈ db.downtimeEvents, r.id ≠ newId

/-- A split of a classified stop that is not refused comes with a reason for each half, the
second one unless it is empty. -/
def ReasonsGiven (db : Database) (op : ShiftOp) : Prop :=
  match op.2 with
  | .split id splitAt firstReason secondReason classifiedBy newId now =>
      ∀ old, db.downtimeEvents.lookup id = some old → old.reasonId.isSome →
        Accepted db old splitAt firstReason secondReason classifiedBy newId now →
        firstReason.isSome ∧ (secondReason.isSome ∨ toSql splitAt = old.endTs)
  | _ => True

section Split

variable {db : Database} {id : String} {splitAt : Int} {firstReason secondReason : Option String}
  {classifiedBy newId : String} {now : Int} {old : DowntimeEventRow}

/-- A split succeeds exactly when it is accepted. -/
theorem splitDowntime_of_accepted (hold : db.downtimeEvents.lookup id = some old)
    (h : Accepted db old splitAt firstReason secondReason classifiedBy newId now) :
    ∃ downtimeEvents,
      (db.downtimeEvents.put (firstHalf old splitAt firstReason classifiedBy now)).insert?
        (secondHalf old newId splitAt secondReason classifiedBy now) = some downtimeEvents ∧
      splitDowntime db id splitAt firstReason secondReason classifiedBy newId now =
        .ok ({ db with downtimeEvents },
          firstHalf old splitAt firstReason classifiedBy now,
          secondHalf old newId splitAt secondReason classifiedBy now) := by
  obtain ⟨downtimeEvents, hins⟩ : ∃ t,
      (db.downtimeEvents.put (firstHalf old splitAt firstReason classifiedBy now)).insert?
        (secondHalf old newId splitAt secondReason classifiedBy now) = some t := by
    apply Table.exists_insert?
    intro r hr
    rcases Table.mem_put.mp hr with rfl | ⟨hr, -⟩
    · exact h.new old (Table.lookup_eq_some.mp hold).1
    · exact h.new r hr
  refine ⟨downtimeEvents, hins, ?_⟩
  have hinside : ¬ (splitAt ≤ ofSql old.startTs ∨ ofSql old.endTs ≤ splitAt) := by
    rw [not_or, not_le, not_le]
    exact ⟨h.lo, h.hi⟩
  unfold splitDowntime
  simp only [hold, if_neg hinside, h.first, hins, h.second]

theorem accepted_of_ok {res : Database × DowntimeEventRow × DowntimeEventRow}
    (h : splitDowntime db id splitAt firstReason secondReason classifiedBy newId now = .ok res) :
    ∃ old downtimeEvents, db.downtimeEvents.lookup id = some old ∧
      Accepted db old splitAt firstReason secondReason classifiedBy newId now ∧
      (db.downtimeEvents.put (firstHalf old splitAt firstReason classifiedBy now)).insert?
        (secondHalf old newId splitAt secondReason classifiedBy now) = some downtimeEvents ∧
      res.1 = { db with downtimeEvents } := by
  unfold splitDowntime at h
  split at h
  · cases h
  · rename_i old hold
    split at h
    · cases h
    · rename_i hinside
      rw [not_or, not_le, not_le] at hinside
      dsimp only at h
      split at h
      · cases h
      · rename_i hfirst
        split at h
        · cases h
        · rename_i downtimeEvents hins
          split at h
          · cases h
          · rename_i hsecond
            cases h
            refine ⟨old, downtimeEvents, hold, ⟨hinside.1, hinside.2, hfirst, hsecond, ?_⟩, hins,
              rfl⟩
            intro r hr heq
            -- the row or its first half holds the id that the second half needs
            by_cases hid : r.id = old.id
            · exact Table.key_ne_of_insert? hins _ (Table.mem_put_self _ _) (hid.symm.trans heq)
            · exact Table.key_ne_of_insert? hins r (Table.mem_put.mpr (Or.inr ⟨hr, hid⟩)) heq

end Split

section Steps

variable {db db' : Database} {op : ShiftOp}

theorem mem_pieces (op : DowntimeOp) (id : String) : id ∈ op.pieces id := by
  cases op with
  | split k =>
      by_cases hk : id = k <;> simp [DowntimeOp.pieces, hk]
  | recompute | classify | store => simp [DowntimeOp.pieces]

/-- A row that stands as it was keeps its reason. -/
theorem kept_of_mem {r : DowntimeEventRow} {x : String} {t : Int} (hr : r ∈ db'.downtimeEvents)
    (hx : r.reasonId = some x) (ht : r.startTs ≤ t ∧ t < r.endTs) :
    ∃ r' ∈ db'.downtimeEvents, r'.id ∈ op.2.pieces r.id ∧ r'.workCenterId = r.workCenterId ∧
      r'.state = r.state ∧ (r'.startTs ≤ t ∧ t < r'.endTs) ∧
      ∃ y, r'.reasonId = some y ∧ (y = x ∨ y ∈ op.2.given r.id) :=
  ⟨r, hr, mem_pieces _ _, rfl, rfl, ht, x, hx, Or.inl rfl⟩

theorem kept_refl (db : Database) (op : ShiftOp) : Kept db op db :=
  fun _ hr _ hx _ hlo hhi => kept_of_mem hr hx ⟨hlo, hhi⟩

variable {wc : String} {start finish : Int} {ids : ℕ → String} {n : ℕ × ℕ}

/-- A recompute deletes unclassified rows only and inserts them only. -/
theorem shift_recompute (h : AllConsistent db)
    (hok : recomputeStates db wc start finish ids = .ok (db', n)) :
    AllConsistent db' ∧ Kept db (wc, .recompute start finish ids) db' := by
  constructor
  · intro r hr
    rcases (mem_downtimeEvents_of_ok hok).mp hr with ⟨hr, -⟩ | hnew
    · exact h r hr
    · obtain ⟨hreason, hby, hat⟩ := unclassified_newDowntime hnew
      constructor <;> simp [hreason, hby, hat]
  · intro r hr x hx t hlo hhi
    apply kept_of_mem ?_ hx ⟨hlo, hhi⟩
    apply (mem_downtimeEvents_of_ok hok).mpr
    apply Or.inl
    refine ⟨hr, ?_⟩
    intro _ hnone
    simp [hx] at hnone

variable {id reasonId classifiedBy : String} {now : Int}

theorem shift_classify (h : AllConsistent db) {res : Database × DowntimeEventRow}
    (hok : classifyDowntime db id reasonId classifiedBy now = .ok res) :
    AllConsistent res.1 ∧ Kept db (wc, .classify id reasonId classifiedBy now) res.1 := by
  unfold classifyDowntime at hok
  split at hok
  · cases hok
  · rename_i old hold
    obtain ⟨hmem, hid⟩ := Table.lookup_eq_some.mp hold
    dsimp only at hok
    split at hok
    · cases hok
    · cases hok
      constructor
      · intro r hr
        rcases Table.mem_put.mp hr with rfl | ⟨hr, -⟩
        · constructor <;> simp
        · exact h r hr
      · intro r hr x hx t hlo hhi
        by_cases hk : r.id = old.id
        · have hrold : r = old := Table.eq_of_key_eq hr hmem hk
          subst hrold
          refine ⟨_, Table.mem_put_self _ _, mem_pieces _ _, rfl, rfl, ⟨hlo, hhi⟩, reasonId, rfl,
            ?_⟩
          apply Or.inr
          simp [DowntimeOp.given, show r.id = id from hid]
        · exact kept_of_mem (Table.mem_put.mpr (Or.inr ⟨hr, hk⟩)) hx ⟨hlo, hhi⟩

variable {splitAt : Int} {firstReason secondReason : Option String} {newId : String}
  {old : DowntimeEventRow}

/-- The first half keeps author and time, so it is right when a reason follows a reason. -/
theorem consistent_firstHalf (h : Consistent old)
    (hreason : old.reasonId.isSome → firstReason.isSome) :
    Consistent (firstHalf old splitAt firstReason classifiedBy now) := by
  cases firstReason with
  | some x => constructor <;> simp [firstHalf]
  | none =>
      have hnone : old.reasonId.isSome = false := by simpa using hreason
      constructor
      · simpa [firstHalf, hnone] using h.author
      · simpa [firstHalf, hnone] using h.time

theorem consistent_secondHalf :
    Consistent (secondHalf old newId splitAt secondReason classifiedBy now) := by
  cases secondReason <;> constructor <;> simp [secondHalf]

/-- A split with a reason for each half of a classified stop. -/
theorem shift_split (h : AllConsistent db)
    (hgiven : ReasonsGiven db
      (wc, .split id splitAt firstReason secondReason classifiedBy newId now))
    {res : Database × DowntimeEventRow × DowntimeEventRow}
    (hok : splitDowntime db id splitAt firstReason secondReason classifiedBy newId now =
      .ok res) :
    AllConsistent res.1 ∧
      Kept db (wc, .split id splitAt firstReason secondReason classifiedBy newId now) res.1 := by
  obtain ⟨old, downtimeEvents, hold, hacc, hins, hdb⟩ := accepted_of_ok hok
  obtain ⟨hmem, hid⟩ := Table.lookup_eq_some.mp hold
  have hreasons : old.reasonId.isSome →
      firstReason.isSome ∧ (secondReason.isSome ∨ toSql splitAt = old.endTs) :=
    fun hsome => hgiven old hold hsome hacc
  rw [hdb]
  constructor
  · intro r hr
    rcases (Table.mem_insert? hins).mp hr with hr | rfl
    · rcases Table.mem_put.mp hr with rfl | ⟨hr, -⟩
      · apply consistent_firstHalf (h old hmem)
        intro hsome
        exact (hreasons hsome).1
      · exact h r hr
    · exact consistent_secondHalf
  · intro r hr x hx t hlo hhi
    by_cases hk : r.id = old.id
    · have hrold : r = old := Table.eq_of_key_eq hr hmem hk
      subst hrold
      have hrid : r.id = id := hid
      obtain ⟨hfirst, hsecond⟩ := hreasons (by simp [hx])
      obtain ⟨y, rfl⟩ := Option.isSome_iff_exists.mp hfirst
      rcases lt_or_ge t (toSql splitAt) with hbefore | hafter
      · refine ⟨firstHalf r splitAt (some y) classifiedBy now, ?_, mem_pieces _ _, rfl, rfl,
          ⟨hlo, hbefore⟩, y, rfl, ?_⟩
        · apply (Table.mem_insert? hins).mpr
          exact Or.inl (Table.mem_put_self _ _)
        · apply Or.inr
          simp [DowntimeOp.given, hrid]
      · -- the second half contains the instant, so it is not empty
        obtain ⟨z, rfl⟩ := Option.isSome_iff_exists.mp
          (hsecond.resolve_right fun hend => absurd hhi (not_lt.mpr (hend ▸ hafter)))
        refine ⟨secondHalf r newId splitAt (some z) classifiedBy now, ?_, ?_, rfl, rfl,
          ⟨hafter, hhi⟩, z, rfl, ?_⟩
        · apply (Table.mem_insert? hins).mpr
          exact Or.inr rfl
        · simp [DowntimeOp.pieces, hrid, secondHalf]
        · apply Or.inr
          simp [DowntimeOp.given, hrid]
    · apply kept_of_mem ?_ hx ⟨hlo, hhi⟩
      apply (Table.mem_insert? hins).mpr
      exact Or.inl (Table.mem_put.mpr (Or.inr ⟨hr, hk⟩))

theorem shift_keeps (h : AllConsistent db) (hgiven : ReasonsGiven db op) :
    AllConsistent (shiftStep db op) ∧ Kept db op (shiftStep db op) := by
  obtain ⟨wc, op⟩ := op
  cases op with
  | recompute start finish ids =>
      unfold shiftStep downtimeStep afterRecompute
      dsimp only
      cases hok : recomputeStates db wc start finish ids with
      | error e => exact ⟨h, kept_refl db _⟩
      | ok res => exact shift_recompute h hok
  | classify id reasonId classifiedBy now =>
      unfold shiftStep downtimeStep
      dsimp only
      cases hok : classifyDowntime db id reasonId classifiedBy now with
      | error e => exact ⟨h, kept_refl db _⟩
      | ok res => exact shift_classify h hok
  | split id splitAt firstReason secondReason classifiedBy newId now =>
      unfold shiftStep downtimeStep
      dsimp only
      cases hok : splitDowntime db id splitAt firstReason secondReason classifiedBy newId now with
      | error e => exact ⟨h, kept_refl db _⟩
      | ok res => exact shift_split h hgiven hok
  | store machineEvents plannedStops =>
      refine ⟨h, ?_⟩
      intro r hr x hx t hlo hhi
      exact kept_of_mem hr hx ⟨hlo, hhi⟩

/-- A split without a reason for the first half leaves author and time without one; one
without a reason for a second half that is not empty drops the reason from the split point on. -/
theorem reasonsGiven_of_kept (h : AllConsistent db) (hnext : AllConsistent (shiftStep db op))
    (hkept : Kept db op (shiftStep db op)) : ReasonsGiven db op := by
  obtain ⟨wc, op⟩ := op
  cases op with
  | recompute | classify | store => trivial
  | split id splitAt firstReason secondReason classifiedBy newId now =>
      intro old hold hsome hacc
      obtain ⟨downtimeEvents, hins, hok⟩ := splitDowntime_of_accepted hold hacc
      obtain ⟨hmem, hid⟩ := Table.lookup_eq_some.mp hold
      have hrid : old.id = id := hid
      simp only [shiftStep, downtimeStep, hok] at hnext hkept
      have hfirst : firstReason.isSome := by
        cases firstReason with
        | some y => rfl
        | none =>
            have hhalf := hnext (firstHalf old splitAt none classifiedBy now)
              ((Table.mem_insert? hins).mpr (Or.inl (Table.mem_put_self _ _)))
            have hby := (h old hmem).author.mp hsome
            simpa [firstHalf, hby] using hhalf.author
      refine ⟨hfirst, ?_⟩
      cases secondReason with
      | some z => exact Or.inl rfl
      | none =>
          obtain ⟨hlo', hhi', -⟩ :=
            toSql_inside (not_or.mpr ⟨not_le.mpr hacc.lo, not_le.mpr hacc.hi⟩)
          refine Or.inr (hhi'.antisymm (not_lt.mp fun hlt => ?_))
          obtain ⟨x, hx⟩ := Option.isSome_iff_exists.mp hsome
          obtain ⟨r, hr, hpiece, -, -, ⟨hlo, hhi⟩, y, hy, -⟩ :=
            hkept old hmem x hx (toSql splitAt) hlo' hlt
          simp only [DowntimeOp.pieces, if_pos hrid, List.mem_cons, List.not_mem_nil,
            or_false] at hpiece
          rcases (Table.mem_insert? hins).mp hr with hr | rfl
          · rcases Table.mem_put.mp hr with rfl | ⟨hr, hne⟩
            · -- the first half ends where the split point stands
              exact absurd hhi (lt_irrefl _)
            · rcases hpiece with hpiece | hpiece
              · exact absurd hpiece hne
              · exact absurd hpiece (hacc.new r hr)
          · cases hy

end Steps

section Runs

/-- Every state of a serial run has consistent classifications and no step drops a reason,
exactly when no classified stop is split without a reason for each half, the second one unless
it is empty. -/
theorem classifications_kept_iff {db : Database} (hinit : AllConsistent db)
    (ops : List ShiftOp) :
    Along shiftStep ReasonsGiven db ops ↔ AllGood shiftStep AllConsistent Kept db ops :=
  along_iff_allGood (fun _ _ h hgiven => shift_keeps h hgiven)
    (fun _ _ h hnext hkept => reasonsGiven_of_kept h hnext hkept) hinit

/-- The stop is derived, classified and split without a reason for either half. -/
def strippedRun : List ShiftOp :=
  [("press", .recompute 0 100000000000 (letterIds 'a')),
    ("press", .classify (letterIds 'a' 0) "jam" "operator" 0),
    ("press", .split (letterIds 'a' 0) 50000000000 none none "operator" "second" 1)]

theorem strippedRun_author_without_reason :
    ¬ ∀ (db : Database) (ops : List ShiftOp), AllConsistent db →
        AllGood shiftStep AllConsistent Kept db ops := by
  intro hall
  have hstripped : ∃ r ∈ (strippedRun.foldl shiftStep staffedFloor).downtimeEvents.rows,
      r.reasonId = none ∧ r.classifiedBy = some "operator" := by
    decide +kernel
  obtain ⟨r, hr, hreason, hby⟩ := hstripped
  have hempty : AllConsistent staffedFloor := fun r hr => absurd hr (Table.notMem_empty r)
  have hconsistent := ((hall staffedFloor strippedRun hempty) 3).1 r hr
  simpa [hreason, hby] using hconsistent.author

/-- The same stop, split with a reason for each half. -/
def keptRun : List ShiftOp :=
  [("press", .recompute 0 100000000000 (letterIds 'a')),
    ("press", .classify (letterIds 'a' 0) "jam" "operator" 0),
    ("press", .split (letterIds 'a' 0) 50000000000 (some "jam") (some "jam") "operator" "second" 1)]

theorem classifications_kept_keptRun :
    (keptRun.foldl shiftStep staffedFloor).downtimeEvents.rows.length = 2 ∧
    AllGood shiftStep AllConsistent Kept staffedFloor keptRun := by
  have hempty : AllConsistent staffedFloor := fun r hr => absurd hr (Table.notMem_empty r)
  refine ⟨by decide +kernel, (classifications_kept_iff hempty keptRun).mp ?_⟩
  refine ⟨trivial, trivial, ?_, trivial⟩
  intro old _ _ _
  exact ⟨rfl, Or.inl rfl⟩

end Runs

end ElectronixMes.Derived
