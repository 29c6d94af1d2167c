import Mathlib.Data.List.Basic

/-!
# Statements that may fail

A call sends statements one after the other, and any of them may fail for a
reason of its own or because the server or the connection does. The statements
of a transaction write a working copy: `COMMIT` makes it the committed state,
and a failure drops it. Without a transaction each statement commits what it
writes, and a failure keeps what the statements before it wrote.
-/

namespace ElectronixMes.Transition

variable {σ α ε : Type*}

/-- What the `n`-th statement of a call fails with instead of running, if it does. -/
abbrev Faults (ε : Type*) := ℕ → Option ε

namespace Faults

def never : Faults ε := fun _ => none

/-- The `n`-th statement of a call. -/
def send (faults : Faults ε) (n : ℕ) (stmt : Except ε α) : Except ε α :=
  match faults n with
  | some e => .error e
  | none => stmt

@[simp] theorem send_never (n : ℕ) (stmt : Except ε α) :
    (never : Faults ε).send n stmt = stmt := rfl

/-- A statement that succeeds was not made to fail. -/
theorem send_eq_ok {faults : Faults ε} {n : ℕ} {stmt : Except ε α} {a : α} :
    faults.send n stmt = .ok a ↔ faults n = none ∧ stmt = .ok a := by
  unfold send
  cases faults n with
  | none => simp
  | some e => simp

end Faults

/-- Statements on a working copy, the first of them the `n`-th of the call. -/
def runAll (faults : Faults ε) : ℕ → σ → List (σ → Except ε σ) → Except ε σ
  | _, s, [] => .ok s
  | n, s, stmt :: rest =>
      match faults.send n (stmt s) with
      | .error e => .error e
      | .ok s => runAll faults (n + 1) s rest

/-- `BEGIN`, the statements and `COMMIT`: the committed state with the answer. -/
def transact (faults : Faults ε) (s : σ) (stmts : List (σ → Except ε σ)) : σ × Except ε Unit :=
  match faults.send 0 (.ok s) with
  | .error e => (s, .error e)
  | .ok working =>
      match runAll faults 1 working stmts with
      | .error e => (s, .error e)
      | .ok working =>
          match faults.send (stmts.length + 1) (.ok working) with
          | .error e => (s, .error e)
          | .ok committed => (committed, .ok ())

variable {faults : Faults ε} {s s' : σ} {stmts : List (σ → Except ε σ)}

/-- Statements that all succeed do what they do without faults. -/
theorem runAll_ok {n : ℕ} (h : runAll faults n s stmts = .ok s') (m : ℕ) :
    runAll Faults.never m s stmts = .ok s' := by
  induction stmts generalizing n s m with
  | nil => exact h
  | cons stmt rest ih =>
      unfold runAll at h ⊢
      rw [Faults.send_never]
      cases hsend : faults.send n (stmt s) with
      | error e =>
          rw [hsend] at h
          cases h
      | ok mid =>
          rw [hsend] at h
          rw [(Faults.send_eq_ok.mp hsend).2]
          exact ih h (m + 1)

/-- The statement numbers do not matter without faults. -/
theorem runAll_never (m n : ℕ) (s : σ) (stmts : List (σ → Except ε σ)) :
    runAll Faults.never m s stmts = runAll Faults.never n s stmts := by
  induction stmts generalizing m n s with
  | nil => rfl
  | cons stmt rest ih =>
      unfold runAll
      simp only [Faults.send_never]
      cases stmt s with
      | error e => rfl
      | ok mid => exact ih (m + 1) (n + 1) mid

/-- The statements of a list behind another one run on what the first ones wrote. -/
theorem runAll_append (n : ℕ) (s : σ) (first second : List (σ → Except ε σ)) :
    runAll faults n s (first ++ second) =
      match runAll faults n s first with
      | .error e => .error e
      | .ok s => runAll faults (n + first.length) s second := by
  induction first generalizing n s with
  | nil => rfl
  | cons stmt rest ih =>
      rw [List.cons_append, runAll, runAll]
      cases faults.send n (stmt s) with
      | error e => rfl
      | ok mid =>
          dsimp only
          rw [ih, List.length_cons, Nat.add_right_comm, Nat.add_assoc]

/-- A transaction leaves the committed state alone and fails, or it commits what all of
its statements do. -/
theorem transact_cases (faults : Faults ε) (s : σ) (stmts : List (σ → Except ε σ)) :
    (∃ e, transact faults s stmts = (s, .error e)) ∨
      ∃ s', runAll Faults.never 0 s stmts = .ok s' ∧ transact faults s stmts = (s', .ok ()) := by
  unfold transact
  cases hbegin : faults.send 0 (Except.ok s) with
  | error e => exact Or.inl ⟨e, rfl⟩
  | ok working =>
      obtain rfl : s = working := Except.ok.inj (Faults.send_eq_ok.mp hbegin).2
      dsimp only
      cases hrun : runAll faults 1 s stmts with
      | error e => exact Or.inl ⟨e, rfl⟩
      | ok written =>
          dsimp only
          cases hcommit : faults.send (stmts.length + 1) (Except.ok written) with
          | error e => exact Or.inl ⟨e, rfl⟩
          | ok committed =>
              obtain rfl : written = committed :=
                Except.ok.inj (Faults.send_eq_ok.mp hcommit).2
              exact Or.inr ⟨written, runAll_ok hrun 0, rfl⟩

/-- Without faults a transaction fails with its first statement that does. -/
theorem transact_never (s : σ) (stmts : List (σ → Except ε σ)) :
    transact Faults.never s stmts =
      match runAll Faults.never 0 s stmts with
      | .error e => (s, .error e)
      | .ok s' => (s', .ok ()) := by
  unfold transact
  simp only [Faults.send_never, runAll_never 1 0 s stmts]

section Each

/-- A failure of a statement that commits alone. The answer may be lost behind the commit. -/
structure Failure (ε : Type*) where
  error : ε
  committed : Bool

/-- The `n`-th statement of a call, which commits alone. -/
def commitAlone (failures : Faults (Failure ε)) (n : ℕ) (s : σ) (stmt : σ → Except ε σ) :
    σ × Except ε Unit :=
  match failures n, stmt s with
  | none, .ok s' => (s', .ok ())
  | none, .error e => (s, .error e)
  | some failure, .ok s' => (if failure.committed then s' else s, .error failure.error)
  | some failure, .error _ => (s, .error failure.error)

theorem commitAlone_eq_ok {failures : Faults (Failure ε)} {n : ℕ} {stmt : σ → Except ε σ}
    (h : commitAlone failures n s stmt = (s', .ok ())) : stmt s = .ok s' := by
  unfold commitAlone at h
  cases hfailure : failures n with
  | some failure =>
      rw [hfailure] at h
      cases hstmt : stmt s with
      | error e =>
          rw [hstmt] at h
          cases h
      | ok mid =>
          rw [hstmt] at h
          cases h
  | none =>
      rw [hfailure] at h
      cases hstmt : stmt s with
      | error e =>
          rw [hstmt] at h
          cases h
      | ok mid =>
          rw [hstmt] at h
          cases h
          rfl

/-- Statements that commit one by one, the first of them the `n`-th of the call. -/
def sendEach (failures : Faults (Failure ε)) : ℕ → σ → List (σ → Except ε σ) → σ × Except ε Unit
  | _, s, [] => (s, .ok ())
  | n, s, stmt :: rest =>
      match commitAlone failures n s stmt with
      | (s, .error e) => (s, .error e)
      | (s, .ok ()) => sendEach failures (n + 1) s rest

variable {failures : Faults (Failure ε)}

/-- Statements that would all succeed do so when none of them is made to fail. -/
theorem sendEach_of_never {n : ℕ} (h : runAll Faults.never 0 s stmts = .ok s')
    (hnever : ∀ k < stmts.length, failures (n + k) = none) :
    sendEach failures n s stmts = (s', .ok ()) := by
  induction stmts generalizing n s with
  | nil =>
      cases h
      rfl
  | cons stmt rest ih =>
      have hfirst : failures n = none := hnever 0 (by simp)
      rw [runAll, Faults.send_never] at h
      rw [sendEach, commitAlone, hfirst]
      cases hstmt : stmt s with
      | error e =>
          rw [hstmt] at h
          cases h
      | ok mid =>
          rw [hstmt] at h
          apply ih (runAll_ok h 0)
          intro k hk
          rw [Nat.add_assoc, Nat.add_comm 1 k]
          exact hnever (k + 1) (by simpa using hk)

/-- Without failures the statements succeed together when they do one by one. -/
theorem runAll_of_sendEach {n : ℕ} (h : sendEach Faults.never n s stmts = (s', .ok ())) :
    runAll (Faults.never : Faults ε) 0 s stmts = .ok s' := by
  induction stmts generalizing n s with
  | nil =>
      cases h
      rfl
  | cons stmt rest ih =>
      rw [sendEach, commitAlone] at h
      rw [runAll, Faults.send_never]
      cases hstmt : stmt s with
      | error e =>
          rw [hstmt] at h
          cases h
      | ok mid =>
          rw [hstmt] at h
          exact runAll_ok (ih h) 1

/-- The first statements of a list succeed when all of them do. -/
theorem runAll_take (h : runAll Faults.never 0 s stmts = .ok s') (k : ℕ) :
    ∃ mid, runAll Faults.never 0 s (stmts.take k) = .ok mid := by
  rw [← List.take_append_drop k stmts, runAll_append] at h
  cases hfirst : runAll Faults.never 0 s (stmts.take k) with
  | error e =>
      rw [hfirst] at h
      cases h
  | ok mid => exact ⟨mid, rfl⟩

/-- How many statements have committed when the `k`-th fails. -/
def Failure.done (failure : Failure ε) (k : ℕ) : ℕ := if failure.committed then k + 1 else k

theorem Failure.le_done (failure : Failure ε) (k : ℕ) : k ≤ failure.done k := by
  unfold Failure.done
  split <;> omega

theorem Failure.done_le (failure : Failure ε) (k : ℕ) : failure.done k ≤ k + 1 := by
  unfold Failure.done
  split <;> omega

theorem Failure.done_succ (failure : Failure ε) (k : ℕ) :
    failure.done (k + 1) = failure.done k + 1 := by
  unfold Failure.done
  split <;> rfl

/-- The first statement that fails ends the call; those before it have committed, and it has
when only its answer was lost. -/
theorem sendEach_of_first {n k : ℕ} {failure : Failure ε} (hk : k < stmts.length)
    (h : runAll Faults.never 0 s (stmts.take (failure.done k)) = .ok s')
    (hfailure : failures (n + k) = some failure) (hfirst : ∀ m < k, failures (n + m) = none) :
    sendEach failures n s stmts = (s', .error failure.error) := by
  induction stmts generalizing n k s with
  | nil => cases hk
  | cons stmt rest ih =>
      rw [sendEach, commitAlone]
      cases k with
      | zero =>
          rw [show failures n = some failure from hfailure]
          unfold Failure.done at h
          cases hcommitted : failure.committed with
          | false =>
              simp only [hcommitted, Bool.false_eq_true, if_false, List.take_zero] at h
              have hs : s = s' := Except.ok.inj h
              rw [← hs]
              cases stmt s with
              | error e => rfl
              | ok mid => simp [hcommitted]
          | true =>
              simp only [hcommitted, if_true, List.take_succ_cons, List.take_zero, runAll,
                Faults.send_never] at h
              cases hstmt : stmt s with
              | error e =>
                  rw [hstmt] at h
                  cases h
              | ok mid =>
                  rw [hstmt] at h
                  cases h
                  simp [hcommitted]
      | succ k =>
          rw [failure.done_succ, List.take_succ_cons, runAll, Faults.send_never] at h
          rw [show failures n = none from hfirst 0 (Nat.succ_pos k)]
          cases hstmt : stmt s with
          | error e =>
              rw [hstmt] at h
              cases h
          | ok mid =>
              rw [hstmt] at h
              apply ih (by simpa using hk) (runAll_ok h 0)
              · rw [Nat.add_assoc, Nat.add_comm 1 k]
                exact hfailure
              · intro m hm
                rw [Nat.add_assoc, Nat.add_comm 1 m]
                exact hfirst (m + 1) (by omega)

/-- Either no statement is made to fail, or one is the first. -/
theorem Faults.first_or_never (faults : Faults ε) (n : ℕ) :
    (∀ k < n, faults k = none) ∨
      ∃ k e, k < n ∧ faults k = some e ∧ ∀ m < k, faults m = none := by
  induction n with
  | zero =>
      left
      intro k hk
      exact absurd hk (Nat.not_lt_zero k)
  | succ n ih =>
      rcases ih with hnever | ⟨k, e, hk, hfault, hfirst⟩
      · cases hn : faults n with
        | none =>
            left
            intro k hk
            rcases Nat.lt_succ_iff_lt_or_eq.mp hk with hk | rfl
            · exact hnever k hk
            · exact hn
        | some e => exact Or.inr ⟨n, e, Nat.lt_succ_self n, hn, hnever⟩
      · exact Or.inr ⟨k, e, Nat.lt_succ_of_lt hk, hfault, hfirst⟩

end Each

end ElectronixMes.Transition
