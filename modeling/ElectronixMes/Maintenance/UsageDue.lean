import ElectronixMes.Db.RepoPm

/-!
# Maintenance by running hours

The hours of each running interval are rounded before they are summed, and so are the marker
of a schedule and the hours it is compared with. A schedule is reported on time as long as
the hours are farther from the interval than the roundings since its creation can carry them.
-/

namespace ElectronixMes.Db

open Relational ElectronixMes.Core Serde Arithmetic

/-- A number that the decimals hold: places and digits are at most twenty-eight. -/
structure Fits (places : ℕ) (q : ℚ) : Prop where
  hasPlaces : HasPlaces places q
  digits : |q| < 10 ^ 28 / 10 ^ places

/-- What the server and the decimals promise. No quotient gets more than twenty-eight places, a
decimal holds twenty-eight digits, and what does not fit is off by less than one of its
last digits. -/
structure Numerics.Lawful (num : Numerics) (least : ℕ) : Prop where
  least_le : ∀ micros : Int, least ≤ num.divScale (micros / 1000000)
  le_most : ∀ micros : Int, num.divScale (micros / 1000000) ≤ 28
  decimal_eq : ∀ places ≤ 28, ∀ q, Fits places q → num.decimal q = q
  decimal_near : ∀ q, HasPlaces 28 q → |q| < 10 ^ 28 → |num.decimal q - q| ≤ |q| / 10 ^ 27
  decimal_places : ∀ q, HasPlaces 28 q → HasPlaces 28 (num.decimal q)
  add_eq : ∀ places ≤ 28, ∀ p q, Fits places p → Fits places q → Fits places (p + q) →
    num.add p q = p + q
  add_near : ∀ p q, HasPlaces 28 p → HasPlaces 28 q → |p + q| < 10 ^ 28 →
    |num.add p q - (p + q)| ≤ |p + q| / 10 ^ 27

section Usage

/-- The seconds that a work center has run. -/
def runSeconds (db : CmmsDatabase) (workCenterId : String) : ℚ :=
  ((runningStates db workCenterId).map MachineStateRow.seconds).sum

/-- The length in hours has further decimal places. -/
def MachineStateRow.Inexact (least : ℕ) (r : MachineStateRow) : Prop :=
  ¬ (3600000000 : Int) ∣ (r.endTs - r.startTs) * 10 ^ least

instance (least : ℕ) (r : MachineStateRow) : Decidable (r.Inexact least) :=
  inferInstanceAs (Decidable (¬ (3600000000 : Int) ∣ (r.endTs - r.startTs) * 10 ^ least))

/-- Half a unit of the last place for each running interval with further places. -/
def quotientError (least : ℕ) (db : CmmsDatabase) (workCenterId : String) : ℚ :=
  ((runningStates db workCenterId).map fun r =>
    if r.Inexact least then 1 / 2 / (10 : ℚ) ^ least else 0).sum

/-- The exact hours that a work center has run beyond the interval since an earlier state. -/
def hoursOver (db₀ db : CmmsDatabase) (workCenterId : String) (interval : Decimal) : ℚ :=
  (runSeconds db workCenterId - runSeconds db₀ workCenterId) / 3600 - numeric interval

/-- The hours that a schedule of this interval counts up to are below this. -/
def hoursBound (db : CmmsDatabase) (workCenterId : String) (interval : Decimal) : ℚ :=
  |runSeconds db workCenterId| / 3600 + (runningStates db workCenterId).length + |numeric interval|

/-- No number has more than twenty-eight digits, and the hours since the creation of the schedule
are farther from the interval than the quotients reach. -/
structure ClearOfQuotients (num : Numerics) (least places : ℕ) (db₀ db : CmmsDatabase)
    (workCenterId : String) (interval : Decimal) : Prop where
  le_most : places ≤ 28
  scale : interval.scale ≤ places
  before : ∀ r ∈ runningStates db₀ workCenterId, num.divScale r.seconds ≤ places
  after : ∀ r ∈ runningStates db workCenterId, num.divScale r.seconds ≤ places
  digits_before : hoursBound db₀ workCenterId interval < 10 ^ 28 / 10 ^ places
  digits_after : hoursBound db workCenterId interval < 10 ^ 28 / 10 ^ places
  margin : Margin (hoursOver db₀ db workCenterId interval)
    (quotientError least db₀ workCenterId + quotientError least db workCenterId)

/-- The hours since the creation of the schedule are farther from the interval than the
quotients and the decimals reach together. -/
structure ClearOfDecimals (least : ℕ) (db₀ db : CmmsDatabase) (workCenterId : String)
    (interval : Decimal) : Prop where
  scale : interval.scale ≤ 28
  before : hoursBound db₀ workCenterId interval < 10 ^ 27
  after : hoursBound db workCenterId interval < 10 ^ 27
  margin : Margin (hoursOver db₀ db workCenterId interval)
    (quotientError least db₀ workCenterId + quotientError least db workCenterId +
      (hoursBound db₀ workCenterId interval + hoursBound db workCenterId interval) / 10 ^ 26)

variable {num : Numerics} {least places : ℕ} {db db₀ db₁ : CmmsDatabase} {workCenterId : String}
  {interval : Decimal}

/-- The length in hours is a number of microseconds over those of an hour. -/
theorem MachineStateRow.seconds_div (r : MachineStateRow) :
    r.seconds / 3600 = ((r.endTs - r.startTs : Int) : ℚ) / 3600000000 := by
  unfold MachineStateRow.seconds
  rw [div_div]
  norm_num

theorem MachineStateRow.hasPlaces_of_not_inexact {r : MachineStateRow} (h : ¬ r.Inexact least) :
    HasPlaces least (r.seconds / 3600) := by
  obtain ⟨m, hm⟩ := not_not.mp h
  refine ⟨m, ?_⟩
  have hm' : ((r.endTs - r.startTs : Int) : ℚ) * 10 ^ least = 3600000000 * m := by
    exact_mod_cast hm
  rw [r.seconds_div, div_eq_div_iff (by norm_num) (by positivity), hm']
  ring

/-- An interval is at most half a unit of the last place off, and not at all without further
places. -/
theorem MachineStateRow.abs_hours_sub_le (hnum : num.Lawful least) (r : MachineStateRow) :
    |r.hours num - r.seconds / 3600| ≤ if r.Inexact least then 1 / 2 / (10 : ℚ) ^ least else 0 := by
  have hplaces : least ≤ num.divScale r.seconds := hnum.least_le (r.endTs - r.startTs)
  unfold MachineStateRow.hours
  split
  · exact abs_roundPlaces_sub_le_of_le hplaces _
  · rename_i hexact
    rw [((r.hasPlaces_of_not_inexact hexact).of_le hplaces).roundPlaces_eq, sub_self, abs_zero]

theorem abs_sumHours_sub_le (hnum : num.Lawful least) (db : CmmsDatabase) (workCenterId : String) :
    |sumHours num db workCenterId - runSeconds db workCenterId / 3600| ≤
      quotientError least db workCenterId := by
  unfold sumHours runSeconds quotientError
  induction runningStates db workCenterId with
  | nil => simp
  | cons r rest ih =>
      have hone := r.abs_hours_sub_le hnum
      rw [List.map_cons, List.map_cons, List.map_cons, List.sum_cons, List.sum_cons, List.sum_cons,
        add_div, add_sub_add_comm]
      exact (abs_add_le _ _).trans (add_le_add hone ih)

/-- The errors are together no more than the intervals. -/
theorem quotientError_le (least : ℕ) (db : CmmsDatabase) (workCenterId : String) :
    quotientError least db workCenterId ≤ (runningStates db workCenterId).length := by
  have hpow : (1 : ℚ) ≤ 10 ^ least := one_le_pow₀ (by norm_num)
  have hhalf : 1 / 2 / (10 : ℚ) ^ least ≤ 1 := (div_le_one (by positivity)).mpr (by linarith)
  unfold quotientError
  induction runningStates db workCenterId with
  | nil => simp
  | cons r rest ih =>
      rw [List.map_cons, List.sum_cons, List.length_cons, Nat.cast_succ, add_comm]
      refine add_le_add ih ?_
      split
      · exact hhalf
      · exact zero_le_one

/-- The sum and the interval are within their bound. -/
theorem abs_sumHours_add_le (hnum : num.Lawful least) (db : CmmsDatabase) (workCenterId : String)
    (interval : Decimal) :
    |sumHours num db workCenterId| + |numeric interval| ≤ hoursBound db workCenterId interval := by
  have hnear := (abs_sumHours_sub_le hnum db workCenterId).trans
    (quotientError_le least db workCenterId)
  have habs := abs_sub_abs_le_abs_sub (sumHours num db workCenterId)
    (runSeconds db workCenterId / 3600)
  rw [abs_div, abs_of_pos (show (0 : ℚ) < 3600 by norm_num)] at habs
  unfold hoursBound
  linarith

theorem hasPlaces_sumHours (h : ∀ r ∈ runningStates db workCenterId,
    num.divScale r.seconds ≤ places) : HasPlaces places (sumHours num db workCenterId) := by
  unfold sumHours
  generalize runningStates db workCenterId = rows at h ⊢
  induction rows with
  | nil => exact hasPlaces_zero places
  | cons r rest ih =>
      obtain ⟨hone, hrest⟩ := List.forall_mem_cons.mp h
      rw [List.map_cons, List.sum_cons]
      exact ((hasPlaces_roundPlaces _ _).of_le hone).add (ih hrest)

theorem hasPlaces_numeric (h : interval.scale ≤ places) : HasPlaces places (numeric interval) := by
  refine HasPlaces.of_le ⟨interval.mantissa, ?_⟩ h
  unfold numeric
  rw [Int.pow_eq]
  push_cast
  rfl

theorem mem_listPmDue {now : Int} {d : PmDue} :
    d ∈ listPmDue num db now ↔
      d.schedule ∈ db.pmSchedules ∧ d.schedule.enabled = true ∧
        d.currentUsageH = workCenterRunHours num db d.schedule.workCenterId ∧
          d.schedule.isDue now d.currentUsageH = true := by
  unfold listPmDue
  rw [List.mem_filter, List.mem_map]
  constructor
  · rintro ⟨⟨r, hr, rfl⟩, hdue⟩
    obtain ⟨hmem, henabled⟩ := List.mem_filter.mp ((List.mem_insertionSort _).mp hr)
    exact ⟨hmem, henabled, rfl, hdue⟩
  · rintro ⟨hmem, henabled, hhours, hdue⟩
    refine ⟨⟨d.schedule, ?_, ?_⟩, hdue⟩
    · exact (List.mem_insertionSort _).mpr (List.mem_filter.mpr ⟨hmem, henabled⟩)
    · rw [← hhours]

end Usage

section Due

variable {num : Numerics} {least places : ℕ} {db₀ db₁ created : CmmsDatabase}
  {id workCenterId name : String} {interval : Decimal} {checklistRef : Option String}
  {row : PmScheduleRow} {now₀ now₁ : Int}

theorem insertPmSchedule_eq {r : PmScheduleRow} {pmSchedules : Table PmScheduleRow}
    (hins : db₀.pmSchedules.insert? r = some pmSchedules) (hwc : r.workCenterId ∈ db₀.workCenters) :
    insertPmSchedule db₀ r = .ok ({ db₀ with pmSchedules }, r) := by
  unfold insertPmSchedule
  rw [hins]
  exact if_pos hwc

theorem insertPmSchedule_row {r : PmScheduleRow} (h : insertPmSchedule db₀ r = .ok (created, row)) :
    row = r := by
  unfold insertPmSchedule at h
  split at h
  · cases h
  · split at h
    · cases h
      rfl
    · cases h

/-- What a schedule by usage remembers. -/
theorem createPmSchedule_usage
    (h : createPmSchedule num db₀ now₀ id workCenterId name "usage_hours" interval checklistRef =
      .ok (created, row)) :
    row.workCenterId = workCenterId ∧ row.triggerType = "usage_hours" ∧ row.enabled = true ∧
      row.nextDueUsageH =
        some (num.add (workCenterRunHours num db₀ workCenterId) (numeric interval)) := by
  have hparse : PmTrigger.parse "usage_hours" = some .usageHours := rfl
  unfold createPmSchedule at h
  rw [hparse] at h
  obtain rfl := insertPmSchedule_row h
  exact ⟨rfl, rfl, rfl, rfl⟩

/-- A schedule by usage is reported once the hours reach its marker. -/
theorem reported_iff
    (hcreate : createPmSchedule num db₀ now₀ id workCenterId name "usage_hours" interval
      checklistRef = .ok (created, row)) (hrow : row ∈ db₁.pmSchedules) :
    (∃ d ∈ listPmDue num db₁ now₁, d.schedule = row) ↔
      num.add (workCenterRunHours num db₀ workCenterId) (numeric interval) ≤
        workCenterRunHours num db₁ workCenterId := by
  obtain ⟨hwc, htrigger, henabled, hnext⟩ := createPmSchedule_usage hcreate
  have hdue : row.isDue now₁ (workCenterRunHours num db₁ workCenterId) = true ↔
      num.add (workCenterRunHours num db₀ workCenterId) (numeric interval) ≤
        workCenterRunHours num db₁ workCenterId := by
    unfold PmScheduleRow.isDue
    rw [htrigger, hnext]
    exact decide_eq_true_iff
  rw [← hdue]
  constructor
  · rintro ⟨d, hd, rfl⟩
    obtain ⟨-, -, hhours, hisDue⟩ := mem_listPmDue.mp hd
    rw [hwc] at hhours
    rw [← hhours]
    exact hisDue
  · intro hisDue
    refine ⟨⟨row, workCenterRunHours num db₁ workCenterId⟩, mem_listPmDue.mpr ?_, rfl⟩
    exact ⟨hrow, henabled, by rw [hwc], hisDue⟩

/-- The drift of the sums since the creation of the schedule. -/
theorem abs_drift_le (hnum : num.Lawful least) (db₀ db₁ : CmmsDatabase) (workCenterId : String)
    (interval : Decimal) :
    |sumHours num db₁ workCenterId - sumHours num db₀ workCenterId - numeric interval -
        hoursOver db₀ db₁ workCenterId interval| ≤
      quotientError least db₀ workCenterId + quotientError least db₁ workCenterId := by
  have hbefore := abs_sumHours_sub_le hnum db₀ workCenterId
  have hafter := abs_sumHours_sub_le hnum db₁ workCenterId
  have hsplit : sumHours num db₁ workCenterId - sumHours num db₀ workCenterId - numeric interval -
      hoursOver db₀ db₁ workCenterId interval =
        (sumHours num db₁ workCenterId - runSeconds db₁ workCenterId / 3600) -
          (sumHours num db₀ workCenterId - runSeconds db₀ workCenterId / 3600) := by
    unfold hoursOver
    ring
  rw [hsplit, add_comm]
  exact (abs_sub _ _).trans (add_le_add hafter hbefore)

/-- Numbers of at most twenty-eight digits are read and added as they are. -/
theorem drift_of_clearOfQuotients (hnum : num.Lawful least)
    (h : ClearOfQuotients num least places db₀ db₁ workCenterId interval) :
    workCenterRunHours num db₁ workCenterId -
        num.add (workCenterRunHours num db₀ workCenterId) (numeric interval) =
      sumHours num db₁ workCenterId - sumHours num db₀ workCenterId - numeric interval := by
  have hbefore := (abs_sumHours_add_le hnum db₀ workCenterId interval).trans_lt h.digits_before
  have hafter := (abs_sumHours_add_le hnum db₁ workCenterId interval).trans_lt h.digits_after
  have hnumeric := abs_nonneg (numeric interval)
  have hsum := abs_nonneg (sumHours num db₀ workCenterId)
  have hfits₀ : Fits places (sumHours num db₀ workCenterId) :=
    ⟨hasPlaces_sumHours h.before, by linarith⟩
  have hfits₁ : Fits places (sumHours num db₁ workCenterId) :=
    ⟨hasPlaces_sumHours h.after, by linarith⟩
  have hinterval : Fits places (numeric interval) := ⟨hasPlaces_numeric h.scale, by linarith⟩
  have hmarker : Fits places (sumHours num db₀ workCenterId + numeric interval) :=
    ⟨hfits₀.hasPlaces.add hinterval.hasPlaces, (abs_add_le _ _).trans_lt hbefore⟩
  unfold workCenterRunHours
  rw [hnum.decimal_eq places h.le_most _ hfits₀, hnum.decimal_eq places h.le_most _ hfits₁,
    hnum.add_eq places h.le_most _ _ hfits₀ hinterval hmarker]
  ring

/-- Reading the sums and adding the interval cuts off no more than the decimals reach. -/
theorem abs_decimals_sub_le (hnum : num.Lawful least)
    (h : ClearOfDecimals least db₀ db₁ workCenterId interval) :
    |workCenterRunHours num db₁ workCenterId -
        num.add (workCenterRunHours num db₀ workCenterId) (numeric interval) -
        (sumHours num db₁ workCenterId - sumHours num db₀ workCenterId - numeric interval)| ≤
      (hoursBound db₀ workCenterId interval + hoursBound db₁ workCenterId interval) / 10 ^ 26 := by
  have hbefore := abs_sumHours_add_le hnum db₀ workCenterId interval
  have hafter := abs_sumHours_add_le hnum db₁ workCenterId interval
  have hnumeric := abs_nonneg (numeric interval)
  have hboundBefore := h.before
  have hboundAfter := h.after
  have hmost : ∀ db, HasPlaces 28 (sumHours num db workCenterId) :=
    fun db => hasPlaces_sumHours fun r _ => hnum.le_most (r.endTs - r.startTs)
  have hread₀ := hnum.decimal_near _ (hmost db₀) (by linarith)
  have hread₁ := hnum.decimal_near _ (hmost db₁) (by linarith)
  set sum₀ := sumHours num db₀ workCenterId
  set sum₁ := sumHours num db₁ workCenterId
  -- the marker is less than twice the bound, and so within the digits
  have hmarker : |num.decimal sum₀ + numeric interval| ≤
      2 * hoursBound db₀ workCenterId interval := by
    have hadd := abs_add_le (num.decimal sum₀) (numeric interval)
    have hdecimal := abs_sub_abs_le_abs_sub (num.decimal sum₀) sum₀
    have hsmall : |sum₀| / 10 ^ 27 ≤ |sum₀| := div_le_self (abs_nonneg _) (by norm_num)
    linarith
  have hadded := hnum.add_near _ _ (hnum.decimal_places _ (hmost db₀)) (hasPlaces_numeric h.scale)
    (hmarker.trans_lt (by linarith))
  unfold workCenterRunHours
  have hsplit : num.decimal sum₁ - num.add (num.decimal sum₀) (numeric interval) -
      (sum₁ - sum₀ - numeric interval) =
        (num.decimal sum₁ - sum₁) - (num.decimal sum₀ - sum₀) -
          (num.add (num.decimal sum₀) (numeric interval) -
            (num.decimal sum₀ + numeric interval)) := by
    ring
  rw [hsplit]
  calc |(num.decimal sum₁ - sum₁) - (num.decimal sum₀ - sum₀) -
        (num.add (num.decimal sum₀) (numeric interval) - (num.decimal sum₀ + numeric interval))|
      ≤ |num.decimal sum₁ - sum₁| + |num.decimal sum₀ - sum₀| +
          |num.add (num.decimal sum₀) (numeric interval) -
            (num.decimal sum₀ + numeric interval)| :=
        (abs_sub _ _).trans (add_le_add_left (abs_sub _ _) _)
    _ ≤ |sum₁| / 10 ^ 27 + |sum₀| / 10 ^ 27 +
          2 * hoursBound db₀ workCenterId interval / 10 ^ 27 :=
        add_le_add (add_le_add hread₁ hread₀)
          (hadded.trans (div_le_div_of_nonneg_right hmarker (by norm_num)))
    _ ≤ (hoursBound db₀ workCenterId interval + hoursBound db₁ workCenterId interval) /
          10 ^ 26 := by
        have hnonneg := abs_nonneg sum₁
        have hnonneg' := abs_nonneg sum₀
        rw [← add_div, ← add_div, div_le_div_iff₀ (by norm_num) (by norm_num)]
        linarith

/-- Quotients with twenty places, which is what an hour's share gets. -/
def twentyPlaces : Numerics where
  divScale _ := 20
  plusDays t days := t + days.mantissa * 86400000000 / 10 ^ days.scale
  decimal q := q
  add p q := p + q

theorem lawful_twentyPlaces : twentyPlaces.Lawful 20 where
  least_le _ := le_rfl
  le_most _ := show 20 ≤ 28 by decide
  decimal_eq _ _ _ _ := rfl
  decimal_near q _ _ := by
    rw [show twentyPlaces.decimal q = q from rfl, sub_self, abs_zero]
    positivity
  decimal_places _ h := h
  add_eq _ _ _ _ _ _ _ := rfl
  add_near p q _ _ _ := by
    rw [show twentyPlaces.add p q = p + q from rfl, sub_self, abs_zero]
    positivity

def newPress : CmmsDatabase where
  workCenters := {"press"}

/-- A schedule for every hour, made before the press has run. -/
def hourly : PmScheduleRow :=
  ⟨"pm", "press", "oil", "usage_hours", ⟨1, 0⟩, none, none, some 0, some 1, none, true, 0, 0⟩

/-- The press with its schedule, after it has run. -/
def pressRan (states : Table MachineStateRow) : CmmsDatabase where
  workCenters := {"press"}
  machineStates := states
  pmSchedules := ⟨[hourly], List.nodup_singleton _⟩

/-- Two intervals that make an hour. -/
def oneHour : Table MachineStateRow :=
  ⟨[⟨"s1", "press", "running", 0, 1800000000⟩,
    ⟨"s2", "press", "running", 1900000000, 3700000000⟩], by decide⟩

/-- Three intervals of twenty minutes, with stops in between. -/
def threeThirds : Table MachineStateRow :=
  ⟨[⟨"s1", "press", "running", 0, 1200000000⟩,
    ⟨"s2", "press", "running", 1300000000, 2500000000⟩,
    ⟨"s3", "press", "running", 2600000000, 3800000000⟩], by decide⟩

theorem hourly_created :
    createPmSchedule twentyPlaces newPress 0 "pm" "press" "oil" "usage_hours" ⟨1, 0⟩ none =
      .ok (pressRan ∅, hourly) := by
  have hmarker : (0 : ℚ) + numeric ⟨1, 0⟩ = 1 := by decide +kernel
  show insertPmSchedule newPress { hourly with nextDueUsageH := some (0 + numeric ⟨1, 0⟩) } = _
  rw [hmarker]
  exact insertPmSchedule_eq rfl (by decide)

end Due

end ElectronixMes.Db
