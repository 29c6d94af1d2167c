import Mathlib.Data.List.Destutter
import Mathlib.Order.Basic

/-!
# Thinning a stream

`destutter` keeps an element when it is related to the one kept last. Here every element
stands with the decision made about it, so that a dropped one can be compared with the
kept one before it. In an ascending stream no other choice keeps more.
-/

namespace ElectronixMes.Timeline

variable {α : Type*} {R : α → α → Prop} [DecidableRel R]

section Decisions

/-- The elements that are marked. -/
def marked (l : List (α × Bool)) : List α := (l.filter Prod.snd).map Prod.fst

@[simp] theorem marked_nil : marked ([] : List (α × Bool)) = [] := rfl

@[simp] theorem marked_cons_true (a : α) (l : List (α × Bool)) :
    marked ((a, true) :: l) = a :: marked l := rfl

@[simp] theorem marked_cons_false (a : α) (l : List (α × Bool)) :
    marked ((a, false) :: l) = marked l := rfl

/-- The decisions of the scan behind a kept element. -/
def decisionsAfter (R : α → α → Prop) [DecidableRel R] : α → List α → List (α × Bool)
  | _, [] => []
  | a, b :: l =>
      if R a b then (b, true) :: decisionsAfter R b l else (b, false) :: decisionsAfter R a l

/-- The first element is kept. -/
def decisions (R : α → α → Prop) [DecidableRel R] : List α → List (α × Bool)
  | [] => []
  | a :: l => (a, true) :: decisionsAfter R a l

theorem map_fst_decisionsAfter (a : α) (l : List α) :
    (decisionsAfter R a l).map Prod.fst = l := by
  induction l generalizing a with
  | nil => rfl
  | cons b l ih =>
      rw [decisionsAfter]
      split
      · rw [List.map_cons, ih]
      · rw [List.map_cons, ih]

theorem cons_marked_decisionsAfter (a : α) (l : List α) :
    a :: marked (decisionsAfter R a l) = l.destutter' R a := by
  induction l generalizing a with
  | nil => rfl
  | cons b l ih =>
      rw [decisionsAfter]
      by_cases hrel : R a b
      · rw [if_pos hrel, marked_cons_true, ih, List.destutter'_cons_pos l hrel]
      · rw [if_neg hrel, marked_cons_false, ih, List.destutter'_cons_neg l hrel]

/-- A dropped element is not related to the last one marked before it. -/
theorem not_rel_of_dropped_after {a b : α} {l : List α} {before after : List (α × Bool)}
    (h : decisionsAfter R a l = before ++ (b, false) :: after) :
    ∃ c, (a :: marked before).getLast? = some c ∧ ¬ R c b := by
  induction l generalizing a before with
  | nil => simp [decisionsAfter] at h
  | cons d l ih =>
      rw [decisionsAfter] at h
      -- the scan goes on from `d` if it is kept, and from `a` otherwise
      by_cases hrel : R a d
      · rw [if_pos hrel] at h
        cases before with
        | nil => simp at h
        | cons e before =>
            obtain ⟨hhead, htail⟩ := List.cons.inj h
            subst hhead
            rw [marked_cons_true, List.getLast?_cons_cons]
            exact ih htail
      · rw [if_neg hrel] at h
        cases before with
        | nil =>
            have hhead := (List.cons.inj h).1
            simp only [Prod.mk.injEq, and_true] at hhead
            subst hhead
            exact ⟨a, rfl, hrel⟩
        | cons e before =>
            obtain ⟨hhead, htail⟩ := List.cons.inj h
            subst hhead
            rw [marked_cons_false]
            exact ih htail

theorem map_fst_decisions (l : List α) : (decisions R l).map Prod.fst = l := by
  cases l with
  | nil => rfl
  | cons a l => rw [decisions, List.map_cons, map_fst_decisionsAfter]

theorem marked_decisions (l : List α) : marked (decisions R l) = l.destutter R := by
  cases l with
  | nil => rfl
  | cons a l =>
      rw [decisions, marked_cons_true, cons_marked_decisionsAfter, List.destutter_cons']

theorem not_rel_of_dropped {b : α} {l : List α} {before after : List (α × Bool)}
    (h : decisions R l = before ++ (b, false) :: after) :
    ∃ c, (marked before).getLast? = some c ∧ ¬ R c b := by
  cases l with
  | nil => simp [decisions] at h
  | cons a l =>
      rw [decisions] at h
      cases before with
      | nil => simp at h
      | cons e before =>
          obtain ⟨hhead, htail⟩ := List.cons.inj h
          subst hhead
          rw [marked_cons_true]
          exact not_rel_of_dropped_after htail

end Decisions

theorem head?_destutter (l : List α) : (l.destutter R).head? = l.head? := by
  cases l with
  | nil => rfl
  | cons a l =>
      rw [List.destutter_cons', ← cons_marked_decisionsAfter]
      rfl

section Longest

variable [Preorder α]

/-- A chain that starts no earlier than the scan stands is no longer than what is kept. -/
theorem length_le_destutter' (hR : ∀ a b c, a ≤ b → R b c → R a c) {a b : α} {l chain : List α}
    (hl : l.Pairwise (· ≤ ·)) (hsub : chain.Sublist l) (hchain : (b :: chain).IsChain R)
    (hab : a ≤ b) : (b :: chain).length ≤ (l.destutter' R a).length := by
  induction l generalizing a b chain with
  | nil =>
      rw [List.sublist_nil.mp hsub]
      exact le_rfl
  | cons c l ih =>
      obtain ⟨hle, hrest⟩ := List.pairwise_cons.mp hl
      cases hsub with
      | cons _ hsub =>
          by_cases hrel : R a c
          · rw [List.destutter'_cons_pos l hrel, List.length_cons, List.length_cons]
            apply Nat.succ_le_succ
            cases chain with
            | nil => exact Nat.zero_le _
            | cons d chain =>
                -- the chain goes on behind `c`, and `c` has been kept
                have hcd : c ≤ d := hle d (hsub.subset List.mem_cons_self)
                have hsub' : chain.Sublist l := (List.sublist_cons_self d chain).trans hsub
                exact ih hrest hsub' (List.isChain_cons_cons.mp hchain).2 hcd
          · rw [List.destutter'_cons_neg l hrel]
            exact ih hrest hsub hchain hab
      | @cons_cons chain _ _ hsub =>
          obtain ⟨hbc, hchain⟩ := List.isChain_cons_cons.mp hchain
          rw [List.destutter'_cons_pos l (hR a b c hab hbc), List.length_cons, List.length_cons]
          exact Nat.succ_le_succ (ih hrest hsub hchain le_rfl)

/-- No chain among the elements of an ascending stream is longer than what is kept. -/
theorem length_le_destutter (hR : ∀ a b c, a ≤ b → R b c → R a c) {l chain : List α}
    (hl : l.Pairwise (· ≤ ·)) (hsub : chain.Sublist l) (hchain : chain.IsChain R) :
    chain.length ≤ (l.destutter R).length := by
  cases chain with
  | nil => exact Nat.zero_le _
  | cons b chain =>
      cases l with
      | nil => exact absurd (List.sublist_nil.mp hsub) (List.cons_ne_nil b chain)
      | cons a l =>
          obtain ⟨hle, hrest⟩ := List.pairwise_cons.mp hl
          rw [List.destutter_cons']
          cases hsub with
          | cons _ hsub =>
              have hab : a ≤ b := hle b (hsub.subset List.mem_cons_self)
              have hsub' : chain.Sublist l := (List.sublist_cons_self b chain).trans hsub
              exact length_le_destutter' hR hrest hsub' hchain hab
          | cons_cons _ hsub => exact length_le_destutter' hR hrest hsub hchain le_rfl

end Longest

end ElectronixMes.Timeline
