import ElectronixMes.Text.Numerals

/-!
# Ids

Every id is a ULID: the millisecond it was drawn in, and random bits. Its text is base 32,
ten characters for the millisecond and sixteen for the random bits.
-/

namespace ElectronixMes.Core

open Text

structure Ulid where
  timestampMs : Fin (2 ^ 48)
  random : Fin (2 ^ 80)
  deriving DecidableEq

/-- Base 32 without the letters `I`, `L`, `O` and `U`. -/
def crockford (d : ℕ) : Char := "0123456789ABCDEFGHJKMNPQRSTVWXYZ".toList.getD d '0'

theorem crockford_inj : ∀ d < 32, ∀ e < 32, crockford d = crockford e → d = e := by
  decide +kernel

namespace Ulid

variable {u v : Ulid}

/-- The ten characters of the millisecond. -/
def time (u : Ulid) : List Char := numeral crockford 32 10 u.timestampMs

/-- The text of an id, 26 characters. -/
def toString (u : Ulid) : String := String.ofList (u.time ++ numeral crockford 32 16 u.random)

theorem take_toString (u : Ulid) : u.toString.toList.take 10 = u.time := by
  rw [toString, String.toList_ofList]
  exact List.take_left' (length_numeral crockford 32 10 _)

theorem time_inj : u.time = v.time ↔ u.timestampMs = v.timestampMs := by
  constructor
  · intro h
    have hfit : (2 : ℕ) ^ 48 ≤ 32 ^ 10 := by decide
    exact Fin.ext (numeral_inj crockford_inj (u.timestampMs.isLt.trans_le hfit)
      (v.timestampMs.isLt.trans_le hfit) h)
  · intro h
    rw [time, time, h]

/-- Ids are told apart by their texts. -/
theorem toString_inj : u.toString = v.toString ↔ u = v := by
  constructor
  · intro h
    have hchars := String.ofList_inj.mp h
    obtain ⟨htime, hrandom⟩ := List.append_inj hchars
      ((length_numeral ..).trans (length_numeral ..).symm)
    have hfit : (2 : ℕ) ^ 80 ≤ 32 ^ 16 := by decide
    have hr := numeral_inj crockford_inj (u.random.isLt.trans_le hfit)
      (v.random.isLt.trans_le hfit) hrandom
    cases u
    cases v
    exact congrArg₂ Ulid.mk (time_inj.mp htime) (Fin.ext hr)
  · exact congrArg toString

end Ulid

end ElectronixMes.Core
