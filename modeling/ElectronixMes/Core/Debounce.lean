import ElectronixMes.Core.StateMachine
import ElectronixMes.Timeline.Thinning

/-!
# What debouncing keeps

Debouncing thins the stream of pulses: a pulse is kept when it is not before the one kept
last and at least the minimal gap behind it. All that is said of it here follows from
this, for pulses in any order.
-/

open ElectronixMes.Timeline

namespace ElectronixMes.Core

variable {minGap : Int}

/-- Far enough behind the pulse kept last. -/
def Spaced (minGap last p : Int) : Prop := minGap ≤ p - last ∧ last ≤ p

instance (minGap : Int) : DecidableRel (Spaced minGap) :=
  fun last p => inferInstanceAs (Decidable (minGap ≤ p - last ∧ last ≤ p))

theorem not_spaced_iff {last p : Int} :
    ¬ Spaced minGap last p ↔ p < last ∨ last ≤ p ∧ p - last < minGap := by
  unfold Spaced
  omega

theorem Spaced.of_le {a b c : Int} (hab : a ≤ b) (h : Spaced minGap b c) :
    Spaced minGap a c := by
  unfold Spaced at *
  omega

theorem debounceStep_nil (p : Int) : debounceStep minGap [] p = [p] := rfl

/-- Both guards of the loop together. -/
theorem debounceStep_concat (minGap : Int) (kept : List Int) (last p : Int) :
    debounceStep minGap (kept ++ [last]) p =
      if Spaced minGap last p then kept ++ [last] ++ [p] else kept ++ [last] := by
  have hlast : (kept ++ [last]).getLast? = some last := by simp
  simp only [debounceStep, hlast]
  by_cases hspaced : Spaced minGap last p
  · have hgap : ¬ p - last < minGap := not_lt.mpr hspaced.1
    have hback : ¬ p < last := not_lt.mpr hspaced.2
    rw [if_pos hspaced, if_neg hgap, if_neg hback]
  · rw [if_neg hspaced]
    apply (not_spaced_iff.mp hspaced).elim
    · intro hback
      rw [if_pos hback, ite_self]
    · intro hclose
      rw [if_pos hclose.2]

theorem foldl_debounceStep_concat (minGap : Int) (pulses kept : List Int) (last : Int) :
    pulses.foldl (debounceStep minGap) (kept ++ [last]) =
      kept ++ pulses.destutter' (Spaced minGap) last := by
  induction pulses generalizing kept last with
  | nil => rfl
  | cons p rest ih =>
      rw [List.foldl_cons, debounceStep_concat]
      by_cases hspaced : Spaced minGap last p
      · rw [if_pos hspaced, ih, List.destutter'_cons_pos rest hspaced, List.append_assoc,
          List.singleton_append]
      · rw [if_neg hspaced, ih, List.destutter'_cons_neg rest hspaced]

/-- The loop thins the stream. -/
theorem debounce_eq_destutter (pulses : List Int) (minGap : Int) :
    debounce pulses minGap = pulses.destutter (Spaced minGap) := by
  cases pulses with
  | nil => rfl
  | cons p rest =>
      rw [debounce, List.foldl_cons, debounceStep_nil, ← List.nil_append [p],
        foldl_debounceStep_concat, List.nil_append, List.destutter_cons']

/-- Of an ascending stream no choice of spaced pulses is longer. -/
theorem length_le_debounce {pulses spaced : List Int} (hsorted : pulses.Pairwise (· ≤ ·))
    (hsub : spaced.Sublist pulses) (hspaced : spaced.IsChain (Spaced minGap)) :
    spaced.length ≤ (debounce pulses minGap).length := by
  rw [debounce_eq_destutter]
  exact length_le_destutter (fun _ _ _ hab h => h.of_le hab) hsorted hsub hspaced

theorem debounce_idem (pulses : List Int) (minGap : Int) :
    debounce (debounce pulses minGap) minGap = debounce pulses minGap := by
  rw [debounce_eq_destutter, debounce_eq_destutter]
  exact List.destutter_idem _ _

/-- A maximal spaced subsequence: the first pulse and from then on every pulse that is
spaced from the one kept before it. Nothing is lost by debouncing again, nor by removing
the repetitions of an ascending stream first. -/
theorem debounce_keeps_spaced (pulses : List Int) (minGap : Int) :
    (debounce pulses minGap).Sublist pulses
      ∧ (debounce pulses minGap).head? = pulses.head?
      ∧ (debounce pulses minGap).IsChain (fun a b => minGap ≤ b - a ∧ a ≤ b)
      ∧ (∃ decided : List (Int × Bool), decided.map Prod.fst = pulses
          ∧ marked decided = debounce pulses minGap
          ∧ ∀ before p after, decided = before ++ (p, false) :: after →
              ∃ last, (marked before).getLast? = some last
                ∧ (p < last ∨ last ≤ p ∧ p - last < minGap))
      ∧ debounce (debounce pulses minGap) minGap = debounce pulses minGap
      ∧ (0 < minGap → pulses.Pairwise (· ≤ ·) →
          ∀ fewer : List Int, fewer.Sublist pulses → (∀ p ∈ pulses, p ∈ fewer) →
            debounce fewer minGap = debounce pulses minGap) := by
  refine ⟨debounce_sublist pulses minGap, ?_, ?_, ?_, debounce_idem pulses minGap, ?_⟩
  · rw [debounce_eq_destutter]
    exact head?_destutter pulses
  · rw [debounce_eq_destutter]
    exact List.isChain_destutter _ pulses
  · refine ⟨decisions (Spaced minGap) pulses, map_fst_decisions pulses, ?_, ?_⟩
    · rw [marked_decisions, debounce_eq_destutter]
    · intro before p after hdropped
      obtain ⟨last, hlast, hnot⟩ := not_rel_of_dropped hdropped
      exact ⟨last, hlast, not_spaced_iff.mp hnot⟩
  · intro hgap hsorted fewer hsub hall
    apply debounce_eq_of_mem_iff hgap (hsorted.sublist hsub) hsorted
    intro p
    exact ⟨fun hp => hsub.subset hp, hall p⟩

end ElectronixMes.Core
