import ElectronixMes.Db.RepoOee
import Mathlib.Data.List.ProdSigma
import Mathlib.Data.List.Count

/-!
# The slices of the shifts

A slice belongs to a shift and a day. The occurrences of one shift on different days lie
apart, so an instant is in at most one of its slices, and it is in one if the day that its
occurrence started on is walked. The walk starts on the day of the window's start; what is
left then of a shift that started the evening before belongs to no slice.
-/

namespace ElectronixMes.Db

open Relational Timeline

/-- Each shift's slices hold exactly the instants of the window in its occurrences, each in
one slice, and no slice is empty or reaches out of the window. -/
structure SlicesExact (db : Database) (wc : String) (window : Span Int) (out : List ShiftOee) :
    Prop where
  within : ∀ o ∈ out, window.lo ≤ o.start ∧ o.start < o.finish ∧ o.finish ≤ window.hi
  exact : ∀ sh ∈ shiftsOf db wc, ∀ t ∈ window,
    (out.countP fun o => o.shiftName = sh.name ∧ t ∈ o.span) = 1 ↔ ∃ day, t ∈ sh.occurrence day

/-- What is sliced for a shift on a day. -/
def slice (window : Span Int) (p : Int × ShiftRow) : Option (String × Span Int) :=
  let s := (p.2.occurrence p.1).clamp window
  if s.hi ≤ s.lo then none else some (p.2.name, s)

def ShiftOee.slice (o : ShiftOee) : String × Span Int := (o.shiftName, o.span)

section Occurrences

variable {sh : ShiftRow} {day day' t : Int}

theorem occurrence_lo (sh : ShiftRow) (day : Int) :
    day * dayLength ≤ (sh.occurrence day).lo ∧ (sh.occurrence day).lo < (day + 1) * dayLength := by
  have hnonneg := sh.startTime.nonneg
  have hlt := sh.startTime.lt_day
  unfold ShiftRow.occurrence
  dsimp only
  rw [add_mul, one_mul]
  omega

theorem occurrence_hi (sh : ShiftRow) (day : Int) :
    (sh.occurrence day).hi ≤ (sh.occurrence day).lo + dayLength := by
  have hnonneg := sh.startTime.nonneg
  have hlt := sh.endTime.lt_day
  unfold ShiftRow.occurrence
  dsimp only
  split <;> omega

/-- The occurrence of the next day starts a day later. -/
theorem occurrence_add (sh : ShiftRow) (day d : Int) :
    (sh.occurrence (day + d)).lo = (sh.occurrence day).lo + d * dayLength := by
  unfold ShiftRow.occurrence
  dsimp only
  rw [add_mul]
  omega

/-- An instant lies in one occurrence of a shift at most. -/
theorem occurrence_unique (h : t ∈ sh.occurrence day) (h' : t ∈ sh.occurrence day') :
    day = day' := by
  -- of two days the later one's occurrence starts a day later at least
  have hlate {d e : Int} (hd : t ∈ sh.occurrence d) (he : t ∈ sh.occurrence e) : ¬ d < e := by
    intro hlt
    have hlo := occurrence_add sh d (e - d)
    rw [add_sub_cancel] at hlo
    have hday : 1 * dayLength ≤ (e - d) * dayLength :=
      Int.mul_le_mul_of_nonneg_right (by omega) (by decide)
    have hend := occurrence_hi sh d
    have hlt' := hd.2
    have hle := he.1
    omega
  exact le_antisymm (not_lt.mp (hlate h' h)) (not_lt.mp (hlate h h'))

theorem mem_daysThrough {day last d : Int} : d ∈ daysThrough day last ↔ day ≤ d ∧ d ≤ last := by
  unfold daysThrough
  simp only [List.mem_map, List.mem_range]
  constructor
  · rintro ⟨i, hi, rfl⟩
    omega
  · rintro ⟨hlo, hhi⟩
    exact ⟨(d - day).toNat, by omega, by omega⟩

theorem nodup_daysThrough (day last : Int) : (daysThrough day last).Nodup := by
  refine List.nodup_range.map ?_
  intro i j h
  have heq : day + (i : Int) = day + (j : Int) := h
  omega

/-- An instant in the window of an occurrence: its day is walked, or it is the day before. -/
theorem mem_days_or {start finish : Int} (ht : t ∈ (⟨start, finish⟩ : Span Int))
    (h : t ∈ sh.occurrence day) :
    day ∈ daysThrough (dateNaive start) (dateNaive finish) ∨ day = dateNaive start - 1 := by
  have hlo := (occurrence_lo sh day).1
  have hhi : t < (day + 2) * dayLength := by
    have hend := occurrence_hi sh day
    have hstart := (occurrence_lo sh day).2
    have hlt := h.2
    rw [add_mul, one_mul] at hstart
    rw [add_mul]
    omega
  have hafter : dateNaive start < day + 2 :=
    Int.ediv_lt_of_lt_mul (by decide) (ht.1.trans_lt hhi)
  have hbefore : day ≤ dateNaive finish :=
    (Int.le_ediv_iff_mul_le (by decide)).mpr (hlo.trans (h.1.trans ht.2.le))
  rw [mem_daysThrough]
  omega

/-- What is left of a shift of the day before at the window's start. -/
theorem mem_occurrence_before {start : Int} (ht : start ≤ t) :
    t ∈ sh.occurrence (dateNaive start - 1) ↔
      sh.endTime.micros ≤ sh.startTime.micros ∧
        t < dateNaive start * dayLength + sh.endTime.micros := by
  have hlt := sh.startTime.lt_day
  have hlt' := sh.endTime.lt_day
  have hstart : dateNaive start * dayLength ≤ start := Int.ediv_mul_le start (by decide)
  unfold ShiftRow.occurrence
  rw [Span.mem_def]
  dsimp only
  rw [sub_mul, one_mul]
  split <;> omega

end Occurrences

section Slices

variable {db : Database} {wc : String} {window : Span Int}

theorem shiftStep_ok {day : Int} {sh : ShiftRow} {init out : List ShiftOee}
    (h : shiftStep db wc window day init sh = .ok out) :
    out.map ShiftOee.slice = init.map ShiftOee.slice ++ (slice window (day, sh)).toList := by
  unfold shiftStep at h
  unfold slice
  dsimp only at h ⊢
  split at h
  · rename_i hempty
    cases h
    rw [if_pos hempty]
    exact (List.append_nil _).symm
  · rename_i hproper
    cases hres : oeeSql db wc ((sh.occurrence day).clamp window).lo
        ((sh.occurrence day).clamp window).hi with
    | error e =>
        rw [hres] at h
        cases h
    | ok result =>
        rw [hres] at h
        cases h
        rw [if_neg hproper, List.map_append]
        rfl

theorem foldlM_shiftStep {day : Int} {shifts : List ShiftRow} {init out : List ShiftOee}
    (h : shifts.foldlM (shiftStep db wc window day) init = .ok out) :
    out.map ShiftOee.slice =
      init.map ShiftOee.slice ++ shifts.filterMap fun sh => slice window (day, sh) := by
  induction shifts generalizing init with
  | nil =>
      cases h
      exact (List.append_nil _).symm
  | cons sh rest ih =>
      rw [List.foldlM_cons] at h
      cases hstep : shiftStep db wc window day init sh with
      | error e =>
          rw [hstep] at h
          cases h
      | ok mid =>
          rw [hstep] at h
          rw [ih h, shiftStep_ok hstep, List.append_assoc]
          congr 1
          rw [List.filterMap_cons]
          cases slice window (day, sh) <;> rfl

/-- The slices are those of the days walked and the shifts, one after the other. -/
theorem oeeByShift_slices {start finish : Int} {out : List ShiftOee}
    (h : oeeByShift db wc start finish = .ok out) :
    out.map ShiftOee.slice =
      (daysThrough (dateNaive start) (dateNaive finish) ×ˢ shiftsOf db wc).filterMap
        (slice ⟨start, finish⟩) := by
  have hgen (days : List Int) (init : List ShiftOee)
      (hdays : days.foldlM (fun out day => (shiftsOf db wc).foldlM
        (shiftStep db wc ⟨start, finish⟩ day) out) init = .ok out) :
      out.map ShiftOee.slice = init.map ShiftOee.slice ++
        (days ×ˢ shiftsOf db wc).filterMap (slice ⟨start, finish⟩) := by
    induction days generalizing init with
    | nil =>
        cases hdays
        exact (List.append_nil _).symm
    | cons day rest ih =>
        rw [List.foldlM_cons] at hdays
        cases hday : (shiftsOf db wc).foldlM (shiftStep db wc ⟨start, finish⟩ day) init with
        | error e =>
            rw [hday] at hdays
            cases hdays
        | ok mid =>
            rw [hday] at hdays
            rw [ih mid hdays, foldlM_shiftStep hday, List.product_cons, List.filterMap_append,
              List.filterMap_map, List.append_assoc]
            rfl
  exact hgen _ [] h

/-- The shifts of a work center are different and have different names. -/
theorem shiftsOf_nodup (db : Database) (wc : String) :
    (shiftsOf db wc).Nodup ∧
      ∀ a ∈ shiftsOf db wc, ∀ b ∈ shiftsOf db wc, a.name = b.name → a = b := by
  unfold shiftsOf
  split
  · exact ⟨List.nodup_nil, fun a ha => absurd ha List.not_mem_nil⟩
  · rename_i area _
    split
    · constructor
      · exact (List.perm_insertionSort _ _).nodup_iff.mpr (db.shifts.nodup_rows.filter _)
      · intro a ha b hb hname
        rw [List.mem_insertionSort, List.mem_filter, decide_eq_true_iff] at ha hb
        exact Table.eq_of_key_eq ha.1 hb.1 (Prod.ext (ha.2.trans hb.2.symm) hname)
    · exact ⟨List.nodup_nil, fun a ha => absurd ha List.not_mem_nil⟩

/-- Where at most one element has a property, the count tells whether one has. -/
theorem countP_eq_one_iff {α : Type*} [DecidableEq α] {l : List α} {p : α → Bool}
    (hl : l.Nodup) (hp : ∀ a ∈ l, ∀ b ∈ l, p a = true → p b = true → a = b) :
    l.countP p = 1 ↔ ∃ a ∈ l, p a = true := by
  constructor
  · intro h
    exact List.countP_pos_iff.mp (h ▸ Nat.one_pos)
  · rintro ⟨a, ha, hpa⟩
    have hcongr : l.countP p = l.count a := by
      apply List.countP_congr
      intro b hb
      rw [beq_iff_eq]
      exact ⟨fun hpb => hp b hb a ha hpb hpa, fun heq => heq ▸ hpa⟩
    rw [hcongr]
    exact List.count_eq_one_of_mem hl ha

/-- An instant is in one slice of a shift exactly when it is in an occurrence of a day that
is walked. -/
theorem count_slices {start finish t : Int} {out : List ShiftOee} {sh : ShiftRow}
    (h : oeeByShift db wc start finish = .ok out) (hsh : sh ∈ shiftsOf db wc)
    (ht : t ∈ (⟨start, finish⟩ : Span Int)) :
    (out.countP fun o => o.shiftName = sh.name ∧ t ∈ o.span) = 1 ↔
      ∃ day ∈ daysThrough (dateNaive start) (dateNaive finish), t ∈ sh.occurrence day := by
  obtain ⟨hnodup, hnames⟩ := shiftsOf_nodup db wc
  have hcount : (out.countP fun o => o.shiftName = sh.name ∧ t ∈ o.span) =
      (daysThrough (dateNaive start) (dateNaive finish) ×ˢ shiftsOf db wc).countP
        fun p => p.2.name = sh.name ∧ t ∈ p.2.occurrence p.1 := by
    have hmap : (out.countP fun o => o.shiftName = sh.name ∧ t ∈ o.span) =
        (out.map ShiftOee.slice).countP fun q => q.1 = sh.name ∧ t ∈ q.2 := by
      rw [List.countP_map]
      rfl
    rw [hmap, oeeByShift_slices h, List.countP_filterMap]
    apply List.countP_congr
    intro p _
    unfold slice Span.clamp
    dsimp only
    have hmem : t ∈ (⟨max (p.2.occurrence p.1).lo start, min (p.2.occurrence p.1).hi finish⟩
        : Span Int) ↔ t ∈ p.2.occurrence p.1 := by
      rw [Span.mem_def, Span.mem_def, max_le_iff, lt_min_iff]
      exact ⟨fun hin => ⟨hin.1.1, hin.2.1⟩, fun hin => ⟨⟨hin.1, ht.1⟩, hin.2, ht.2⟩⟩
    by_cases hempty : min (p.2.occurrence p.1).hi finish ≤ max (p.2.occurrence p.1).lo start
    · have hout : t ∉ p.2.occurrence p.1 := by
        intro hin
        have hclamped := hmem.mpr hin
        exact absurd (hclamped.1.trans_lt hclamped.2) (not_lt.mpr hempty)
      simp [hempty, hout]
    · simp [hempty, hmem]
  rw [hcount, countP_eq_one_iff ((nodup_daysThrough _ _).product hnodup)]
  · constructor
    · rintro ⟨⟨day, sh'⟩, hp, hin⟩
      obtain ⟨hday, hsh'⟩ := List.pair_mem_product.mp hp
      obtain ⟨hname, hmem⟩ := of_decide_eq_true hin
      exact ⟨day, hday, hnames sh' hsh' sh hsh hname ▸ hmem⟩
    · rintro ⟨day, hday, hin⟩
      exact ⟨(day, sh), List.pair_mem_product.mpr ⟨hday, hsh⟩, decide_eq_true ⟨rfl, hin⟩⟩
  · rintro ⟨day, a⟩ ha ⟨day', b⟩ hb hpa hpb
    obtain ⟨hname, hin⟩ := of_decide_eq_true hpa
    obtain ⟨hname', hin'⟩ := of_decide_eq_true hpb
    obtain rfl := hnames a (List.pair_mem_product.mp ha).2 b (List.pair_mem_product.mp hb).2
      (hname.trans hname'.symm)
    exact Prod.ext (occurrence_unique hin hin') rfl

theorem slices_within {start finish : Int} {out : List ShiftOee}
    (h : oeeByShift db wc start finish = .ok out) :
    ∀ o ∈ out, start ≤ o.start ∧ o.start < o.finish ∧ o.finish ≤ finish := by
  intro o ho
  have hmem : o.slice ∈ out.map ShiftOee.slice := List.mem_map_of_mem ho
  rw [oeeByShift_slices h] at hmem
  obtain ⟨⟨day, sh⟩, -, hslice⟩ := List.mem_filterMap.mp hmem
  unfold slice at hslice
  dsimp only at hslice
  split at hslice
  · cases hslice
  · rename_i hproper
    have hspan : (sh.occurrence day).clamp ⟨start, finish⟩ = o.span :=
      congrArg Prod.snd (Option.some.inj hslice)
    rw [hspan] at hproper
    have hlo : start ≤ o.span.lo := hspan ▸ le_max_right _ _
    have hhi : o.span.hi ≤ finish := hspan ▸ min_le_right _ _
    exact ⟨hlo, not_le.mp hproper, hhi⟩

/-- The slices are exact unless the window starts inside the morning part of an overnight
shift. -/
theorem shiftSlices_exact_iff {start finish : Int} {out : List ShiftOee}
    (h : oeeByShift db wc start finish = .ok out) (hw : start < finish) :
    SlicesExact db wc ⟨start, finish⟩ out ↔
      ∀ sh ∈ shiftsOf db wc, sh.endTime.micros ≤ sh.startTime.micros →
        sh.endTime.micros ≤ start % dayLength := by
  have htime : start = dateNaive start * dayLength + start % dayLength := by
    rw [dateNaive, mul_comm]
    exact (Int.mul_ediv_add_emod start dayLength).symm
  constructor
  · intro hexact sh hsh hovernight
    by_contra hmorning
    have hstart : start ∈ (⟨start, finish⟩ : Span Int) := ⟨le_rfl, hw⟩
    have hin : start ∈ sh.occurrence (dateNaive start - 1) :=
      (mem_occurrence_before le_rfl).mpr ⟨hovernight, by omega⟩
    obtain ⟨day, hday, hin'⟩ :=
      (count_slices h hsh hstart).mp ((hexact.exact sh hsh start hstart).mpr ⟨_, hin⟩)
    have hbefore := (mem_daysThrough.mp hday).1
    rw [occurrence_unique hin' hin] at hbefore
    omega
  · intro hcond
    refine ⟨slices_within h, ?_⟩
    intro sh hsh t ht
    rw [count_slices h hsh ht]
    constructor
    · rintro ⟨day, -, hin⟩
      exact ⟨day, hin⟩
    · rintro ⟨day, hin⟩
      rcases mem_days_or ht hin with hday | rfl
      · exact ⟨day, hday, hin⟩
      · have hle : start ≤ t := ht.1
        obtain ⟨hovernight, hmorning⟩ := (mem_occurrence_before hle).mp hin
        have hend := hcond sh hsh hovernight
        omega

/-- The full hour of a day. -/
def TimeOfDay.ofHour (hour : Fin 24) : TimeOfDay where
  micros := hour * 3600000000
  nonneg := by omega
  lt_day := by
    unfold dayLength
    omega

/-- A press that is run in a day shift and a night shift. -/
def shiftedPress : Database where
  sites := {"works"}
  areas := ⟨[⟨"hall", "works"⟩], List.nodup_singleton _⟩
  workCenters := ⟨[{ id := "press", areaId := "hall" }], List.nodup_singleton _⟩
  shifts := ⟨[⟨"works", "night", .ofHour 22, .ofHour 6⟩, ⟨"works", "day", .ofHour 6, .ofHour 14⟩],
    by simp [Keyed.key]⟩

theorem shiftSlices_exact_fromSix :
    ∃ out, oeeByShift shiftedPress "press" 21600000000 108000000000 = .ok out ∧
      out.map ShiftOee.slice =
        [("day", ⟨21600000000, 50400000000⟩), ("night", ⟨79200000000, 108000000000⟩)] ∧
      SlicesExact shiftedPress "press" ⟨21600000000, 108000000000⟩ out := by
  refine ⟨_, rfl, rfl, ?_⟩
  exact (shiftSlices_exact_iff rfl (by decide)).mpr (by decide +kernel)

/-- From two to four in the morning the night shift works, and there is no slice for it. -/
theorem shiftSlices_miss_night :
    ∃ out, oeeByShift shiftedPress "press" 7200000000 14400000000 = .ok out ∧ out = [] ∧
      ¬ SlicesExact shiftedPress "press" ⟨7200000000, 14400000000⟩ out := by
  refine ⟨_, rfl, rfl, ?_⟩
  intro hexact
  have hnight := hexact.exact ⟨"works", "night", .ofHour 22, .ofHour 6⟩ (by decide +kernel)
    7200000000 (by decide)
  exact absurd (hnight.mpr ⟨-1, by decide⟩) (by decide +kernel)

end Slices

end ElectronixMes.Db
