import Mathlib.Data.List.Basic

/-!
# Runs of a total step function

A run folds a step function over a list of actions; an action that does not
apply leaves the state alone. `Along` says that a condition on the state and
the action holds at every step, and `Along.invariant` carries an invariant
over the whole run from what one such step keeps.
-/

namespace ElectronixMes.Transition

variable {σ α : Type*} {step : σ → α → σ}

/-- The condition holds at every step, in the state the step is taken from. -/
def Along (step : σ → α → σ) (P : σ → α → Prop) : σ → List α → Prop
  | _, [] => True
  | s, a :: rest => P s a ∧ Along step P (step s a) rest

instance decidableAlong (P : σ → α → Prop) [∀ s a, Decidable (P s a)] :
    (s : σ) → (run : List α) → Decidable (Along step P s run)
  | _, [] => isTrue trivial
  | s, a :: rest =>
      have := decidableAlong P (step s a) rest
      inferInstanceAs (Decidable (P s a ∧ Along step P (step s a) rest))

variable {P : σ → α → Prop} {s : σ} {run : List α}

/-- The condition holds along every initial part of a run. -/
theorem Along.take (h : Along step P s run) (k : ℕ) : Along step P s (run.take k) := by
  induction run generalizing s k with
  | nil => simpa using h
  | cons a rest ih =>
      cases k with
      | zero => trivial
      | succ k => exact ⟨h.1, ih h.2 k⟩

/-- What steps under the condition keep holds at the end of the run. -/
theorem Along.invariant {I : σ → Prop}
    (hstep : ∀ s a, I s → P s a → I (step s a)) (hinit : I s)
    (h : Along step P s run) : I (run.foldl step s) := by
  induction run generalizing s with
  | nil => exact hinit
  | cons a rest ih => exact ih (hstep s a hinit h.1) h.2

/-- A condition that follows from another one under an invariant of its steps. -/
theorem Along.of_invariant {I : σ → Prop} {Q : σ → α → Prop}
    (hcond : ∀ s a, I s → P s a → Q s a) (hstep : ∀ s a, I s → P s a → I (step s a))
    (hinit : I s) (h : Along step P s run) : Along step Q s run := by
  induction run generalizing s with
  | nil => trivial
  | cons a rest ih => exact ⟨hcond s a hinit h.1, ih (hstep s a hinit h.1) h.2⟩

/-- The state after one more step, if there is one. -/
theorem foldl_take_succ (step : σ → α → σ) (s : σ) (run : List α) (k : ℕ) :
    (run.take (k + 1)).foldl step s = (run.take k).foldl step s ∨
      ∃ a, run[k]? = some a ∧
        (run.take (k + 1)).foldl step s = step ((run.take k).foldl step s) a := by
  rw [List.take_add_one]
  cases hk : run[k]? with
  | none => simp
  | some a => simp

/-- The condition holds at the `k`-th step, in the state before it. -/
theorem Along.getElem? (h : Along step P s run) {k : ℕ} {a : α} (hk : run[k]? = some a) :
    P ((run.take k).foldl step s) a := by
  induction run generalizing s k with
  | nil => cases hk
  | cons b rest ih =>
      cases k with
      | zero =>
          cases hk
          exact h.1
      | succ k => exact ih h.2 hk

/-- What every step under the condition does to the state, given an invariant,
relates each two successive states of the run. -/
theorem Along.each_step {I : σ → Prop} {R : σ → σ → Prop} (hrefl : ∀ s, R s s)
    (hstep : ∀ s a, I s → P s a → I (step s a) ∧ R s (step s a)) (hinit : I s)
    (h : Along step P s run) (k : ℕ) :
    R ((run.take k).foldl step s) ((run.take (k + 1)).foldl step s) := by
  have hk : I ((run.take k).foldl step s) :=
    (h.take k).invariant (fun s a hI hP => (hstep s a hI hP).1) hinit
  rcases foldl_take_succ step s run k with hsame | ⟨a, ha, heq⟩
  · rw [hsame]
    exact hrefl _
  · rw [heq]
    exact (hstep _ a hk (h.getElem? ha)).2

/-- Every state of the run satisfies `I`, and every step relates its states by `R`. -/
def AllGood (step : σ → α → σ) (I : σ → Prop) (R : σ → α → σ → Prop) (s : σ) (run : List α) :
    Prop :=
  ∀ k, I ((run.take k).foldl step s) ∧ ∀ a, run[k]? = some a →
    R ((run.take k).foldl step s) a ((run.take (k + 1)).foldl step s)

theorem allGood_cons {I : σ → Prop} {R : σ → α → σ → Prop} {a : α} {rest : List α}
    (h : AllGood step I R s (a :: rest)) :
    I s ∧ R s a (step s a) ∧ AllGood step I R (step s a) rest :=
  ⟨(h 0).1, (h 0).2 a rfl, fun k => h (k + 1)⟩

theorem AllGood.state {I : σ → Prop} {R : σ → α → σ → Prop} (h : AllGood step I R s run) :
    I s := (h 0).1

/-- When the condition of a step is what makes a good state and step out of a good state, a
run is good throughout exactly when it meets the condition throughout. -/
theorem along_iff_allGood {I : σ → Prop} {R : σ → α → σ → Prop}
    (hkeep : ∀ s a, I s → P s a → I (step s a) ∧ R s a (step s a))
    (honly : ∀ s a, I s → I (step s a) → R s a (step s a) → P s a) (hinit : I s) :
    Along step P s run ↔ AllGood step I R s run := by
  constructor
  · intro h k
    have hk : I ((run.take k).foldl step s) :=
      (h.take k).invariant (fun s a hI hP => (hkeep s a hI hP).1) hinit
    refine ⟨hk, ?_⟩
    intro a ha
    have hnext : (run.take (k + 1)).foldl step s = step ((run.take k).foldl step s) a := by
      rw [List.take_add_one, ha]
      simp
    rw [hnext]
    exact (hkeep _ a hk (h.getElem? ha)).2
  · intro h
    induction run generalizing s with
    | nil => trivial
    | cons a rest ih =>
        obtain ⟨hI, hR, hrest⟩ := allGood_cons h
        exact ⟨honly s a hI hrest.state hR, ih hrest.state hrest⟩

/-- When the condition of a step is what leads from good states to good states, under an
invariant that steps under the condition keep, a run has good states only exactly when it
meets the condition throughout. -/
theorem along_iff_forall {I J : σ → Prop}
    (hkeep : ∀ s a, I s → J s → P s a → I (step s a) ∧ J (step s a))
    (honly : ∀ s a, I s → J s → I (step s a) → P s a) (hinit : I s) (hinv : J s) :
    Along step P s run ↔ ∀ k, I ((run.take k).foldl step s) := by
  constructor
  · intro h k
    have hk : I ((run.take k).foldl step s) ∧ J ((run.take k).foldl step s) :=
      (h.take k).invariant (I := fun s => I s ∧ J s)
        (fun s a hs hP => hkeep s a hs.1 hs.2 hP) ⟨hinit, hinv⟩
    exact hk.1
  · intro h
    induction run generalizing s with
    | nil => trivial
    | cons a rest ih =>
        have hP : P s a := honly s a hinit hinv (h 1)
        have hnext := hkeep s a hinit hinv hP
        exact ⟨hP, ih hnext.1 hnext.2 fun k => h (k + 1)⟩

end ElectronixMes.Transition
