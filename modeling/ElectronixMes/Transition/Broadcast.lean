import Mathlib.Data.List.Infix
import Mathlib.Tactic.Common

/-!
# Broadcast channels

A channel keeps the newest `capacity` values of what was sent, and a receiver takes them one by
one. One that is further behind than what is kept is told so and goes on at the oldest value
that is kept. What a receiver has taken is described by the whole history of the channel.
-/

namespace ElectronixMes.Transition

variable {α σ : Type*}

/-- What a receiver is answered. -/
inductive Received (α : Type*) where
  | value (a : α)
  | lagged (missed : ℕ)
  | empty

/-- The value of an answer, if it is one. -/
def Received.toList : Received α → List α
  | value a => [a]
  | lagged _ => []
  | empty => []

/-- Ask for the value at position `next` of all that was sent; the answer comes with the
position to ask for next. -/
def recv (capacity : ℕ) (sent : List α) (next : ℕ) : Received α × ℕ :=
  if next + capacity < sent.length then
    (.lagged (sent.length - capacity - next), sent.length - capacity)
  else
    match sent[next]? with
    | some a => (.value a, next + 1)
    | none => (.empty, next)

/-- What a receiver that subscribed at `start` has `got` when it is about to ask for `next`. -/
structure Took (capacity start : ℕ) (sent : List α) (next : ℕ) (got : List α) : Prop where
  start_le : start ≤ next
  le : next ≤ sent.length
  sublist : got.Sublist ((sent.take next).drop start)
  newest : (sent.take next).drop (max start (sent.length - capacity)) <:+ got

section Receiver

variable {capacity start next : ℕ} {sent got : List α}

theorem recv_of_lt (h : next + capacity < sent.length) :
    recv capacity sent next =
      (.lagged (sent.length - capacity - next), sent.length - capacity) := if_pos h

theorem recv_of_getElem? (h : sent.length ≤ next + capacity) {a : α} (ha : sent[next]? = some a) :
    recv capacity sent next = (.value a, next + 1) := by
  rw [recv, if_neg (Nat.not_lt.mpr h), ha]

theorem recv_of_getElem?_none (h : sent.length ≤ next + capacity) (ha : sent[next]? = none) :
    recv capacity sent next = (.empty, next) := by
  rw [recv, if_neg (Nat.not_lt.mpr h), ha]

/-- The three answers. -/
theorem recv_cases (capacity : ℕ) (sent : List α) (next : ℕ) :
    (next + capacity < sent.length ∧ (recv capacity sent next).1.toList = [] ∧
      (recv capacity sent next).2 = sent.length - capacity) ∨
    (sent.length ≤ next + capacity ∧ ∃ a, sent[next]? = some a ∧
      (recv capacity sent next).1.toList = [a] ∧ (recv capacity sent next).2 = next + 1) ∨
    (sent.length ≤ next + capacity ∧ sent.length ≤ next ∧
      (recv capacity sent next).1.toList = [] ∧ (recv capacity sent next).2 = next) := by
  rcases Nat.lt_or_ge (next + capacity) sent.length with hlag | hkeep
  · rw [recv_of_lt hlag]
    exact Or.inl ⟨hlag, rfl, rfl⟩
  · cases ha : sent[next]? with
    | some a =>
        rw [recv_of_getElem? hkeep ha]
        exact Or.inr (Or.inl ⟨hkeep, a, rfl, rfl, rfl⟩)
    | none =>
        rw [recv_of_getElem?_none hkeep ha]
        exact Or.inr (Or.inr ⟨hkeep, List.getElem?_eq_none_iff.mp ha, rfl, rfl⟩)

/-- What was sent before a position and after another one, with one value more. -/
theorem drop_take_succ {a : α} {k : ℕ} (hk : k ≤ next) (ha : sent[next]? = some a) :
    (sent.take (next + 1)).drop k = (sent.take next).drop k ++ [a] := by
  have hlt : next < sent.length := (List.getElem?_eq_some_iff.mp ha).1
  rw [List.take_add_one, ha, Option.toList_some, List.drop_append_of_le_length]
  rw [List.length_take]
  omega

theorem took_start (capacity : ℕ) (sent : List α) :
    Took capacity sent.length sent sent.length [] := by
  have hnothing : (sent.take sent.length).drop sent.length = [] := by simp
  refine ⟨le_rfl, le_rfl, ?_, ?_⟩
  · rw [hnothing]
  · rw [max_eq_left (Nat.sub_le _ _), hnothing]

/-- Sending takes nothing from what was got; it only lets go of what is kept. -/
theorem Took.send (h : Took capacity start sent next got) (more : List α) :
    Took capacity start (sent ++ more) next got := by
  have hsame : (sent ++ more).take next = sent.take next := List.take_append_of_le_length h.le
  refine ⟨h.start_le, ?_, ?_, ?_⟩
  · have hle := h.le
    rw [List.length_append]
    omega
  · rw [hsame]
    exact h.sublist
  · rw [hsame]
    refine List.IsSuffix.trans ?_ h.newest
    obtain ⟨k, hk⟩ : ∃ k, max start ((sent ++ more).length - capacity) =
        max start (sent.length - capacity) + k := by
      apply Nat.exists_eq_add_of_le
      rw [List.length_append]
      omega
    rw [hk, ← List.drop_drop]
    exact List.drop_suffix _ _

theorem Took.recv (h : Took capacity start sent next got) :
    Took capacity start sent (recv capacity sent next).2
      (got ++ (recv capacity sent next).1.toList) := by
  have hstart := h.start_le
  have hle := h.le
  rcases recv_cases capacity sent next with
    ⟨hlag, hgot, hnext⟩ | ⟨hkeep, a, ha, hgot, hnext⟩ | ⟨-, -, hgot, hnext⟩
  · rw [hgot, hnext, List.append_nil]
    refine ⟨by omega, Nat.sub_le _ _, ?_, ?_⟩
    · -- the block that is passed over lies behind what was got
      refine h.sublist.trans (List.Sublist.drop ?_ start)
      exact List.take_sublist_take_left (by omega)
    · have hnothing : (sent.take (sent.length - capacity)).drop
          (max start (sent.length - capacity)) = [] := by
        rw [List.drop_eq_nil_iff, List.length_take]
        omega
      rw [hnothing]
      exact List.nil_suffix
  · have hlt : next < sent.length := (List.getElem?_eq_some_iff.mp ha).1
    rw [hgot, hnext]
    refine ⟨by omega, hlt, ?_, ?_⟩
    · rw [drop_take_succ hstart ha]
      exact h.sublist.append_right [a]
    · rw [drop_take_succ (by omega) ha]
      obtain ⟨before, hbefore⟩ := h.newest
      refine ⟨before, ?_⟩
      rw [← List.append_assoc, hbefore]
  · rw [hgot, hnext, List.append_nil]
    exact h

/-- A receiver that has asked for everything has got the newest values. -/
theorem Took.newest_suffix (h : Took capacity start sent sent.length got) :
    sent.drop (max start (sent.length - capacity)) <:+ got := by
  have hnewest := h.newest
  rwa [List.take_length] at hnewest

/-- A receiver that was not further behind than what is kept gets the next value. -/
theorem recv_of_kept (hkept : sent.length ≤ next + capacity) (hstart : start ≤ next) :
    (sent.take next).drop start ++ (recv capacity sent next).1.toList =
      (sent.take (recv capacity sent next).2).drop start := by
  rcases recv_cases capacity sent next with
    ⟨hlag, -, -⟩ | ⟨-, a, ha, hgot, hnext⟩ | ⟨-, -, hgot, hnext⟩
  · omega
  · rw [hgot, hnext, drop_take_succ hstart ha]
  · rw [hgot, hnext, List.append_nil]

end Receiver

section Folds

variable {f : σ → α → σ}

/-- A value that brings a state about whatever the state was before. -/
def Resets (f : σ → α → σ) (a : α) : Prop := ∀ s s', f s a = f s' a

/-- Two histories with a common end in which some value resets the state lead to the same. -/
theorem foldl_eq_of_resets {newest got all : List α} (hgot : newest <:+ got)
    (hall : newest <:+ all) (hreset : ∃ a ∈ newest, Resets f a) (s s' : σ) :
    got.foldl f s = all.foldl f s' := by
  obtain ⟨a, ha, hreset⟩ := hreset
  obtain ⟨before, after, rfl⟩ := List.append_of_mem ha
  have hsame (t t' : σ) : (before ++ a :: after).foldl f t = (before ++ a :: after).foldl f t' := by
    rw [List.foldl_append, List.foldl_append, List.foldl_cons, List.foldl_cons,
      hreset (before.foldl f t) (before.foldl f t')]
  obtain ⟨missed, rfl⟩ := hgot
  obtain ⟨earlier, rfl⟩ := hall
  calc
    (missed ++ (before ++ a :: after)).foldl f s =
        (before ++ a :: after).foldl f (missed.foldl f s) := List.foldl_append
    _ = (before ++ a :: after).foldl f (earlier.foldl f s') := hsame _ _
    _ = (earlier ++ (before ++ a :: after)).foldl f s' := List.foldl_append.symm

end Folds

end ElectronixMes.Transition
