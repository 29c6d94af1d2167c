import Mathlib.Algebra.Order.Floor.Ring
import Mathlib.Data.Rat.Floor
import Mathlib.Tactic.Linarith
import Mathlib.Tactic.FieldSimp

/-!
# Rounding to decimal places

A number is rounded to the nearest one with a count of decimal places, halves away from
zero. The error is at most half a unit of the last place, and there is none when the number
has no further places. A comparison with what has been rounded is the exact one as long as the
numbers are farther apart than the errors reach.
-/

namespace ElectronixMes.Arithmetic

/-- The nearest integer, halves away from zero. -/
def nearest (q : ℚ) : ℤ := if 0 ≤ q then ⌊q + 1 / 2⌋ else -⌊-q + 1 / 2⌋

/-- The nearest number with this many decimal places. -/
def roundPlaces (places : ℕ) (q : ℚ) : ℚ := nearest (q * 10 ^ places) / 10 ^ places

/-- A number without further decimal places. -/
def HasPlaces (places : ℕ) (q : ℚ) : Prop := ∃ m : ℤ, q = m / 10 ^ places

/-- An excess is on its side of zero by more than a bound. -/
def Margin (excess bound : ℚ) : Prop := if 0 ≤ excess then bound ≤ excess else bound < -excess

instance (excess bound : ℚ) : Decidable (Margin excess bound) :=
  inferInstanceAs (Decidable (if 0 ≤ excess then bound ≤ excess else bound < -excess))

theorem abs_floor_half_sub_le (q : ℚ) : |(⌊q + 1 / 2⌋ : ℚ) - q| ≤ 1 / 2 := by
  have hlow := Int.floor_le (q + 1 / 2)
  have hhigh := Int.lt_floor_add_one (q + 1 / 2)
  rw [abs_le]
  constructor
  · linarith
  · linarith

theorem abs_nearest_sub_le (q : ℚ) : |(nearest q : ℚ) - q| ≤ 1 / 2 := by
  unfold nearest
  split
  · exact abs_floor_half_sub_le q
  · have h := abs_floor_half_sub_le (-q)
    rw [abs_sub_comm] at h
    push_cast
    rw [show -(⌊-q + 1 / 2⌋ : ℚ) - q = -q - ⌊-q + 1 / 2⌋ by ring]
    exact h

/-- An integer is its own nearest. -/
theorem nearest_intCast (m : ℤ) : nearest (m : ℚ) = m := by
  have h := abs_lt.mp ((abs_nearest_sub_le m).trans_lt (by norm_num : (1 / 2 : ℚ) < 1))
  have hlow : (-1 : ℤ) < nearest (m : ℚ) - m := by exact_mod_cast h.1
  have hhigh : nearest (m : ℚ) - m < 1 := by exact_mod_cast h.2
  omega

/-- The error is at most half a unit of the last place. -/
theorem abs_roundPlaces_sub_le (places : ℕ) (q : ℚ) :
    |roundPlaces places q - q| ≤ 1 / 2 / 10 ^ places := by
  have hpos : (0 : ℚ) < 10 ^ places := by positivity
  have hsame : roundPlaces places q - q =
      (nearest (q * 10 ^ places) - q * 10 ^ places) / 10 ^ places := by
    unfold roundPlaces
    field_simp
  rw [hsame, abs_div, abs_of_pos hpos]
  exact div_le_div_of_nonneg_right (abs_nearest_sub_le _) hpos.le

/-- More places round no worse. -/
theorem abs_roundPlaces_sub_le_of_le {places least : ℕ} (h : least ≤ places) (q : ℚ) :
    |roundPlaces places q - q| ≤ 1 / 2 / 10 ^ least := by
  refine (abs_roundPlaces_sub_le places q).trans ?_
  have hpow : (10 : ℚ) ^ least ≤ 10 ^ places := pow_le_pow_right₀ (by norm_num) h
  exact div_le_div_of_nonneg_left (by norm_num) (by positivity) hpow

section Places

variable {places least : ℕ} {p q : ℚ}

theorem hasPlaces_zero (places : ℕ) : HasPlaces places 0 := ⟨0, by simp⟩

theorem hasPlaces_roundPlaces (places : ℕ) (q : ℚ) : HasPlaces places (roundPlaces places q) :=
  ⟨_, rfl⟩

theorem HasPlaces.add (hp : HasPlaces places p) (hq : HasPlaces places q) :
    HasPlaces places (p + q) := by
  obtain ⟨m, rfl⟩ := hp
  obtain ⟨n, rfl⟩ := hq
  exact ⟨m + n, by push_cast; ring⟩

theorem HasPlaces.of_le (h : HasPlaces least q) (hle : least ≤ places) : HasPlaces places q := by
  obtain ⟨m, rfl⟩ := h
  obtain ⟨k, rfl⟩ := Nat.exists_eq_add_of_le hle
  refine ⟨m * 10 ^ k, ?_⟩
  push_cast
  rw [pow_add]
  field_simp

/-- A number without further places is not rounded. -/
theorem HasPlaces.roundPlaces_eq (h : HasPlaces places q) : roundPlaces places q = q := by
  obtain ⟨m, rfl⟩ := h
  unfold roundPlaces
  rw [div_mul_cancel₀ _ (by positivity), nearest_intCast]

end Places

/-- A drift within the margin does not change the side. -/
theorem Margin.nonneg_add_iff {excess bound drift : ℚ} (h : Margin excess bound)
    (hdrift : |drift| ≤ bound) : 0 ≤ excess + drift ↔ 0 ≤ excess := by
  obtain ⟨hlow, hhigh⟩ := abs_le.mp hdrift
  unfold Margin at h
  split at h
  · rename_i hover
    exact iff_of_true (by linarith) hover
  · rename_i hover
    exact iff_of_false (by linarith) hover

end ElectronixMes.Arithmetic
