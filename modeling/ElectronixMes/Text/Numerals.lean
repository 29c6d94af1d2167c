import Mathlib.Data.Nat.Basic
import Mathlib.Algebra.Order.Group.Nat
import Mathlib.Data.List.Basic

/-!
# Numerals of a fixed width

A number is written with a given count of digits, the most significant one first. Numbers
that fit the width are told apart by their numerals.
-/

namespace ElectronixMes.Text

variable {α : Type*} (digit : ℕ → α) (base : ℕ)

/-- The last digits of a number, as many as the width says. -/
def numeral : ℕ → ℕ → List α
  | 0, _ => []
  | width + 1, n => numeral width (n / base) ++ [digit (n % base)]

@[simp] theorem length_numeral (width n : ℕ) : (numeral digit base width n).length = width := by
  induction width generalizing n with
  | zero => rfl
  | succ width ih => rw [numeral, List.length_append, ih, List.length_singleton]

variable {digit base}

/-- Numbers that fit the width are told apart by their numerals. -/
theorem numeral_inj (hdigit : ∀ d < base, ∀ e < base, digit d = digit e → d = e) {width m n : ℕ}
    (hm : m < base ^ width) (hn : n < base ^ width)
    (h : numeral digit base width m = numeral digit base width n) : m = n := by
  induction width generalizing m n with
  | zero =>
      rw [pow_zero, Nat.lt_one_iff] at hm hn
      rw [hm, hn]
  | succ width ih =>
      have hbase : 0 < base := by
        rcases Nat.eq_zero_or_pos base with rfl | hpos
        · rw [Nat.zero_pow (Nat.succ_pos width)] at hm
          exact absurd hm (Nat.not_lt_zero m)
        · exact hpos
      rw [pow_succ] at hm hn
      obtain ⟨hhigh, hlow⟩ := List.append_inj' h rfl
      have hdiv : m / base = n / base :=
        ih (Nat.div_lt_of_lt_mul (mul_comm base _ ▸ hm))
          (Nat.div_lt_of_lt_mul (mul_comm base _ ▸ hn)) hhigh
      have hmod : m % base = n % base :=
        hdigit _ (Nat.mod_lt m hbase) _ (Nat.mod_lt n hbase) (List.singleton_inj.mp hlow)
      rw [← Nat.div_add_mod m base, ← Nat.div_add_mod n base, hdiv, hmod]

end ElectronixMes.Text
