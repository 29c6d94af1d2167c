import Mathlib.Data.List.Forall2

/-!
# Machines that answer

Each step of a machine takes an input and gives an answer. Two runs that a relation on states
carries step by step give the same answers. A machine is followed by an account that is kept of
its inputs and answers alone: what relates its state to the account at the start relates them
after every run.
-/

namespace ElectronixMes.Transition

variable {σ α β τ : Type*}

/-- The answers of a run. -/
def answers (step : σ → α → σ × β) : σ → List α → List β
  | _, [] => []
  | s, a :: rest => (step s a).2 :: answers step (step s a).1 rest

/-- The state behind a run. -/
def reached (step : σ → α → σ × β) (s : σ) (run : List α) : σ :=
  run.foldl (fun s a => (step s a).1) s

/-- The state behind a run with the account that `note` keeps of it. -/
def followed (step : σ → α → σ × β) (note : τ → α → β → τ) (s : σ) (account : τ) (run : List α) :
    σ × τ :=
  run.foldl (fun p a => ((step p.1 a).1, note p.2 a (step p.1 a).2)) (s, account)

section TwoRuns

variable {step : σ → α → σ × β} {R : σ → σ → Prop} {A : α → α → Prop}

/-- Alike states answer alike inputs in the same way and stay alike. -/
def Unwinds (step : σ → α → σ × β) (R : σ → σ → Prop) (A : α → α → Prop) : Prop :=
  ∀ s s' a a', R s s' → A a a' →
    (step s a).2 = (step s' a').2 ∧ R (step s a).1 (step s' a').1

theorem Unwinds.answers_eq (h : Unwinds step R A) {run run' : List α}
    (hrun : List.Forall₂ A run run') {s s' : σ} (hs : R s s') :
    answers step s run = answers step s' run' := by
  induction hrun generalizing s s' with
  | nil => rfl
  | cons ha _ ih =>
      obtain ⟨hanswer, hnext⟩ := h s s' _ _ hs ha
      rw [answers, answers, hanswer, ih hnext]

theorem Unwinds.reached (h : Unwinds step R A) {run run' : List α}
    (hrun : List.Forall₂ A run run') {s s' : σ} (hs : R s s') :
    R (reached step s run) (reached step s' run') := by
  induction hrun generalizing s s' with
  | nil => exact hs
  | cons ha _ ih => exact ih (h s s' _ _ hs ha).2

end TwoRuns

section Accounts

variable {step : σ → α → σ × β} {note : τ → α → β → τ} {T : σ → τ → Prop}

/-- What each step keeps between a state and its account holds behind every run. -/
theorem followed_invariant (hstep : ∀ s t a, T s t → T (step s a).1 (note t a (step s a).2))
    {s : σ} {t : τ} (hs : T s t) (run : List α) :
    T (followed step note s t run).1 (followed step note s t run).2 := by
  induction run generalizing s t with
  | nil => exact hs
  | cons a rest ih => exact ih (hstep s t a hs)

end Accounts

end ElectronixMes.Transition
