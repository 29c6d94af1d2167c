import ElectronixMes.Transition.Run
import Mathlib.Algebra.BigOperators.Group.List.Basic

/-!
# Sessions over a shared store

Any number of sessions work on one store. A session keeps its local variables
between its statements; a statement is atomic, reads and writes the store and
leaves new local variables. A run opens sessions and advances them in any
order. `Inv` is an invariant of the store together with an assertion about
each session, and `Inv.step` reduces it to what one statement does to its own
session and to the assertions of the others.
-/

namespace ElectronixMes.Transition

/-- The store and the local states of the sessions, by the order of their opening. -/
structure Sessions (σ τ : Type*) where
  store : σ
  threads : List τ

/-- A new request, or the next statement of a session with the input it draws
from outside. -/
inductive Move (ι ε : Type*) where
  | call (request : ι)
  | advance (who : ℕ) (input : ε)
  deriving DecidableEq

/-- The same move with another input. -/
def Move.map {ι ε ε' : Type*} (g : ε' → ε) : Move ι ε' → Move ι ε
  | .call r => .call r
  | .advance who input => .advance who (g input)

namespace Sessions

variable {σ τ ι ε : Type*} (start : ι → τ) (exec : ℕ → ε → σ → τ → σ × τ)

/-- One move. Advancing a session that does not exist does nothing. -/
def step (s : Sessions σ τ) : Move ι ε → Sessions σ τ
  | .call r => { s with threads := s.threads ++ [start r] }
  | .advance who input =>
      match s.threads[who]? with
      | none => s
      | some t =>
          ⟨(exec who input s.store t).1, s.threads.set who (exec who input s.store t).2⟩

/-- The condition holds of the store and the session that a move advances. -/
def Guarded (P : σ → τ → Prop) (s : Sessions σ τ) : Move ι ε → Prop
  | .call _ => True
  | .advance who _ =>
      match s.threads[who]? with
      | none => True
      | some t => P s.store t

instance decidableGuarded (P : σ → τ → Prop) [∀ st t, Decidable (P st t)] (s : Sessions σ τ) :
    (m : Move ι ε) → Decidable (Guarded P s m)
  | .call _ => inferInstanceAs (Decidable True)
  | .advance who _ =>
      match h : s.threads[who]? with
      | none => isTrue (by simp only [Guarded, h])
      | some t => decidable_of_iff (P s.store t) (by simp only [Guarded, h])

/-- A move opens a session, does nothing, or runs one statement. -/
theorem step_cases (s : Sessions σ τ) (m : Move ι ε) :
    (∃ r, m = .call r ∧ step start exec s m = ⟨s.store, s.threads ++ [start r]⟩) ∨
    step start exec s m = s ∨
    ∃ who input t, m = .advance who input ∧ s.threads[who]? = some t ∧
      step start exec s m =
        ⟨(exec who input s.store t).1, s.threads.set who (exec who input s.store t).2⟩ := by
  cases m with
  | call r => exact Or.inl ⟨r, rfl, rfl⟩
  | advance who input =>
      cases ht : s.threads[who]? with
      | none => exact Or.inr (Or.inl (by simp only [step, ht]))
      | some t => exact Or.inr (Or.inr ⟨who, input, t, rfl, ht, by simp only [step, ht]⟩)

/-- A statement leaves the other sessions as they are. -/
theorem getElem?_set_of_ne {threads : List τ} {who i : ℕ} {t u : τ} (hi : i ≠ who)
    (h : threads[i]? = some u) : (threads.set who t)[i]? = some u := by
  rw [List.getElem?_set_ne (fun heq => hi heq.symm)]
  exact h

/-- A session after a statement is its own or another one as it was. -/
theorem set_cases {threads : List τ} {who i : ℕ} {t u : τ}
    (h : (threads.set who t)[i]? = some u) :
    i = who ∧ u = t ∨ i ≠ who ∧ threads[i]? = some u := by
  by_cases hi : i = who
  · subst hi
    have hlt : i < threads.length := by
      simpa using (List.getElem?_eq_some_iff.mp h).1
    rw [List.getElem?_set_self hlt, Option.some.injEq] at h
    exact Or.inl ⟨rfl, h.symm⟩
  · rw [List.getElem?_set_ne (fun heq => hi heq.symm)] at h
    exact Or.inr ⟨hi, h⟩

/-- A move relates the stores before and after it as the statement it runs does. -/
theorem store_step {R : σ → σ → Prop} (s : Sessions σ τ) (m : Move ι ε) (hrefl : R s.store s.store)
    (hexec : ∀ who input t, s.threads[who]? = some t →
      R s.store (exec who input s.store t).1) : R s.store (step start exec s m).store := by
  rcases step_cases start exec s m with ⟨r, -, heq⟩ | heq | ⟨who, input, t, -, ht, heq⟩
  · rw [heq]
    exact hrefl
  · rw [heq]
    exact hrefl
  · rw [heq]
    exact hexec who input t ht

/-- Where a session after a move comes from. -/
theorem thread_cases (s : Sessions σ τ) (m : Move ι ε) {i : ℕ} {u : τ}
    (h : (step start exec s m).threads[i]? = some u) :
    s.threads[i]? = some u ∨ (∃ r, m = .call r ∧ u = start r) ∨
      ∃ input t, m = .advance i input ∧ s.threads[i]? = some t ∧
        u = (exec i input s.store t).2 := by
  rcases step_cases start exec s m with ⟨r, rfl, heq⟩ | heq | ⟨who, input, t, rfl, ht, heq⟩
  · rw [heq] at h
    rcases Nat.lt_or_ge i s.threads.length with hlt | hge
    · rw [List.getElem?_append_left hlt] at h
      exact Or.inl h
    · have hmem := List.mem_of_getElem? (List.getElem?_append_right hge ▸ h)
      exact Or.inr (Or.inl ⟨r, rfl, List.mem_singleton.mp hmem⟩)
  · rw [heq] at h
    exact Or.inl h
  · rw [heq] at h
    rcases set_cases h with ⟨rfl, rfl⟩ | ⟨-, h⟩
    · exact Or.inr (Or.inr ⟨input, t, rfl, ht, rfl⟩)
    · exact Or.inl h

/-- A session that a move does not advance stays. -/
theorem thread_stays (s : Sessions σ τ) {m : Move ι ε} {i : ℕ} {t : τ}
    (h : s.threads[i]? = some t) (hm : ∀ input, m ≠ .advance i input) :
    (step start exec s m).threads[i]? = some t := by
  rcases step_cases start exec s m with ⟨r, rfl, heq⟩ | heq | ⟨who, input, u, rfl, hu, heq⟩
  · rw [heq, List.getElem?_append_left (List.getElem?_eq_some_iff.mp h).1]
    exact h
  · rw [heq]
    exact h
  · rw [heq]
    exact getElem?_set_of_ne (fun hi => hm input (by rw [hi])) h

/-- A session that no statement moves on stays for good. -/
theorem thread_final {t : τ} {i : ℕ} (hfinal : ∀ input st, (exec i input st t).2 = t)
    {s : Sessions σ τ} (h : s.threads[i]? = some t) (run : List (Move ι ε)) :
    (run.foldl (step start exec) s).threads[i]? = some t := by
  induction run generalizing s with
  | nil => exact h
  | cons m rest ih =>
      apply ih
      rcases step_cases start exec s m with ⟨r, rfl, heq⟩ | heq | ⟨who, input, u, rfl, hu, heq⟩
      · rw [heq, List.getElem?_append_left (List.getElem?_eq_some_iff.mp h).1]
        exact h
      · rw [heq]
        exact h
      · rw [heq]
        by_cases hi : i = who
        · subst hi
          rw [h, Option.some.injEq] at hu
          subst hu
          rw [hfinal]
          exact List.getElem?_set_self (List.getElem?_eq_some_iff.mp h).1
        · exact getElem?_set_of_ne hi h

variable {start exec} {s : Sessions σ τ} {P : σ → τ → Prop}

theorem Guarded.of_thread {who : ℕ} {input : ε} {t : τ}
    (h : Guarded P s (.advance who input : Move ι ε)) (ht : s.threads[who]? = some t) :
    P s.store t := by
  simpa only [Guarded, ht] using h

/-- An invariant of the store and an assertion about every session. -/
def Inv (I : σ → Prop) (J : σ → ℕ → τ → Prop) (s : Sessions σ τ) : Prop :=
  I s.store ∧ ∀ i t, s.threads[i]? = some t → J s.store i t

variable {I : σ → Prop} {J : σ → ℕ → τ → Prop}

theorem inv_nil {st : σ} (h : I st) : Inv I J ⟨st, []⟩ :=
  ⟨h, fun _ _ ht => nomatch ht⟩

/-- A move keeps an invariant when a new session satisfies its assertion and the statement
that the move runs keeps the invariant and all assertions. -/
theorem Inv.move (hcall : ∀ i r, I s.store → J s.store i (start r)) {m : Move ι ε}
    (hadvance : ∀ who input t, m = .advance who input → s.threads[who]? = some t →
      I (exec who input s.store t).1 ∧
        J (exec who input s.store t).1 who (exec who input s.store t).2 ∧
        ∀ i u, i ≠ who → s.threads[i]? = some u → J (exec who input s.store t).1 i u)
    (h : Inv I J s) : Inv I J (Sessions.step start exec s m) := by
  obtain ⟨hI, hJ⟩ := h
  rcases step_cases start exec s m with
    ⟨r, -, heq⟩ | heq | ⟨who, input, t, hm, ht, heq⟩
  · rw [heq]
    refine ⟨hI, ?_⟩
    intro i u hu
    rcases Nat.lt_or_ge i s.threads.length with hlt | hge
    · rw [List.getElem?_append_left hlt] at hu
      exact hJ i u hu
    · obtain rfl : start r = u := by
        have hmem := List.mem_of_getElem? (List.getElem?_append_right hge ▸ hu)
        exact (List.mem_singleton.mp hmem).symm
      exact hcall i r hI
  · rw [heq]
    exact ⟨hI, hJ⟩
  · rw [heq]
    obtain ⟨hI', hown, hother⟩ := hadvance who input t hm ht
    refine ⟨hI', ?_⟩
    intro i u hu
    rcases set_cases hu with ⟨rfl, rfl⟩ | ⟨hi, hu⟩
    · exact hown
    · exact hother i u hi hu

/-- A new session satisfies its assertion, a statement keeps the invariant and its
own session's assertion, and it does not invalidate the others'. -/
theorem Inv.step (hcall : ∀ st i r, I st → J st i (start r))
    (hown : ∀ who input st t, I st → J st who t → P st t →
      I (exec who input st t).1 ∧ J (exec who input st t).1 who (exec who input st t).2)
    (hother : ∀ who input st t i u, i ≠ who → I st → J st who t → P st t → J st i u →
      J (exec who input st t).1 i u)
    (h : Inv I J s) {m : Move ι ε} (hm : Guarded P s m) :
    Inv I J (Sessions.step start exec s m) := by
  apply h.move (hcall s.store)
  rintro who input t rfl ht
  have hP : P s.store t := hm.of_thread ht
  obtain ⟨hI', hJ'⟩ := hown who input s.store t h.1 (h.2 who t ht) hP
  refine ⟨hI', hJ', ?_⟩
  intro i u hi hu
  exact hother who input s.store t i u hi h.1 (h.2 who t ht) hP (h.2 i u hu)

/-- The case of an assertion about the session alone. -/
theorem Inv.step_local {J : τ → Prop} (hcall : ∀ r, J (start r))
    (hown : ∀ who input st t, I st → J t → P st t →
      I (exec who input st t).1 ∧ J (exec who input st t).2)
    (h : Inv I (fun _ _ => J) s) {m : Move ι ε} (hm : Guarded P s m) :
    Inv I (fun _ _ => J) (Sessions.step start exec s m) :=
  h.step (fun _ _ r _ => hcall r) hown (fun _ _ _ _ _ _ _ _ _ _ hu => hu) hm

/-- An invariant that every statement keeps, whatever it finds, holds after every run. -/
theorem Inv.run (hcall : ∀ st i r, I st → J st i (start r))
    (hown : ∀ who input st t, I st → J st who t →
      I (exec who input st t).1 ∧ J (exec who input st t).1 who (exec who input st t).2)
    (hother : ∀ who input st t i u, i ≠ who → I st → J st who t → J st i u →
      J (exec who input st t).1 i u)
    (h : Inv I J s) (run : List (Move ι ε)) :
    Inv I J (run.foldl (Sessions.step start exec) s) := by
  induction run generalizing s with
  | nil => exact h
  | cons m rest ih =>
      refine ih (h.step (P := fun _ _ => True) hcall ?_ ?_ ?_)
      · intro who input st t hI hJ _
        exact hown who input st t hI hJ
      · intro who input st t i u hi hI hJ _
        exact hother who input st t i u hi hI hJ
      · cases m with
        | call r => trivial
        | advance who input =>
            simp only [Guarded]
            split <;> trivial

section Map

variable {τ' ε' : Type*} {start' : ι → τ'} {exec' : ℕ → ε' → σ → τ' → σ × τ'}

/-- The same store, with a part of each session. -/
def map (f : τ → τ') (s : Sessions σ τ) : Sessions σ τ' := ⟨s.store, s.threads.map f⟩

/-- When a statement does with the part of a session what it does with the session, a run
does so too. -/
theorem map_run (f : τ → τ') (g : ε' → ε) (hstart : ∀ r, f (start r) = start' r)
    (hexec : ∀ who input st t, exec' who input st (f t) =
      ((exec who (g input) st t).1, f (exec who (g input) st t).2))
    (s : Sessions σ τ) (run : List (Move ι ε')) :
    map f ((run.map (Move.map g)).foldl (Sessions.step start exec) s) =
      run.foldl (Sessions.step start' exec') (map f s) := by
  induction run generalizing s with
  | nil => rfl
  | cons m rest ih =>
      rw [List.map_cons, List.foldl_cons, List.foldl_cons, ih]
      congr 1
      cases m with
      | call r => simp [Move.map, Sessions.step, map, hstart]
      | advance who input =>
          cases ht : s.threads[who]? with
          | none => simp [Move.map, Sessions.step, map, ht]
          | some t => simp [Move.map, Sessions.step, map, ht, hexec, List.map_set]

end Map

section Total

variable {M : Type*} [AddCommGroup M] (f : τ → M)

/-- What the sessions add up to. -/
def total (s : Sessions σ τ) : M := (s.threads.map f).sum

theorem total_call (st : σ) (threads : List τ) (t : τ) :
    total f ⟨st, threads ++ [t]⟩ = total f ⟨st, threads⟩ + f t := by
  simp [total]

/-- A statement exchanges the share of its own session. -/
theorem total_set {st : σ} {who : ℕ} {t u : τ} (h : s.threads[who]? = some t) :
    total f ⟨st, s.threads.set who u⟩ = total f s - f t + f u := by
  obtain ⟨hlt, ht⟩ := List.getElem?_eq_some_iff.mp h
  unfold total
  rw [List.map_set, List.sum_set', dif_pos (by simpa using hlt), List.getElem_map, ht,
    sub_eq_add_neg, add_assoc]

end Total

end Sessions

section Locks

variable {κ : Type*} [DecidableEq κ]

/-- For each row that is locked, the session that holds it. -/
abbrev Locks (κ : Type*) := κ → Option ℕ

namespace Locks

/-- No row is locked. -/
def free : Locks κ := fun _ => none

/-- The session must wait for the row. -/
def waits (locks : Locks κ) (who : ℕ) (k : κ) : Bool := (locks k).any (· ≠ who)

def take (locks : Locks κ) (who : ℕ) (k : κ) : Locks κ := Function.update locks k (some who)

def release (locks : Locks κ) (k : κ) : Locks κ := Function.update locks k none

variable {locks : Locks κ} {who i : ℕ} {k row : κ}

theorem take_self (locks : Locks κ) (who : ℕ) (k : κ) : locks.take who k k = some who := by
  rw [take, Function.update_self]

theorem release_take (who : ℕ) (k : κ) : (take free who k).release k = free := by
  rw [take, release, Function.update_idem]
  exact Function.update_eq_self k free

omit [DecidableEq κ] in
/-- A row that a session need not wait for is not another one's. -/
theorem ne_of_waits (hwaits : locks.waits who k = false) (hi : i ≠ who) : locks k ≠ some i := by
  intro hheld
  rw [waits, hheld, Option.any_some, decide_eq_false_iff_not, not_not] at hwaits
  exact hi hwaits

/-- Who takes a row that it need not wait for leaves the rows of the others alone. -/
theorem take_of_held (hwaits : locks.waits who row = false) (hi : i ≠ who)
    (hheld : locks k = some i) : locks.take who row k = some i := by
  by_cases hk : k = row
  · subst hk
    exact absurd hheld (ne_of_waits hwaits hi)
  · rw [take, Function.update_of_ne hk]
    exact hheld

/-- Who releases its own row leaves the rows of the others alone. -/
theorem release_of_held (hown : locks row = some who) (hi : i ≠ who)
    (hheld : locks k = some i) : locks.release row k = some i := by
  have hk : k ≠ row := by
    rintro rfl
    rw [hown, Option.some.injEq] at hheld
    exact hi hheld.symm
  rw [release, Function.update_of_ne hk]
  exact hheld

/-- Take several rows. -/
def takeAll (locks : Locks κ) (who : ℕ) (ks : List κ) : Locks κ :=
  fun k => if k ∈ ks then some who else locks k

def releaseAll (locks : Locks κ) (ks : List κ) : Locks κ :=
  fun k => if k ∈ ks then none else locks k

theorem releaseAll_takeAll (who : ℕ) (ks : List κ) :
    (takeAll free who ks).releaseAll ks = free := by
  funext k
  by_cases hk : k ∈ ks
  · simp only [releaseAll, if_pos hk]
    rfl
  · simp only [releaseAll, takeAll, if_neg hk]

theorem releaseAll_nil (locks : Locks κ) : locks.releaseAll [] = locks := by
  funext k
  simp [releaseAll]

theorem takeAll_of_held {ks : List κ} (hwaits : ∀ k ∈ ks, locks.waits who k = false)
    (hi : i ≠ who) (hheld : locks k = some i) : locks.takeAll who ks k = some i := by
  rw [takeAll, if_neg]
  · exact hheld
  · exact fun hk => ne_of_waits (hwaits k hk) hi hheld

theorem releaseAll_of_held {ks : List κ} (hown : ∀ k ∈ ks, locks k = some who) (hi : i ≠ who)
    (hheld : locks k = some i) : locks.releaseAll ks k = some i := by
  rw [releaseAll, if_neg]
  · exact hheld
  · intro hk
    rw [hown k hk, Option.some.injEq] at hheld
    exact hi hheld.symm

end Locks

end Locks

section Lifecycle

variable {S : Type*} {parse : String → Option S} {asStr : S → String} {can : S → S → Bool}
  {a b : Option String}

/-- A stored status stays, or moves along an allowed transition. -/
def Moves (parse : String → Option S) (asStr : S → String) (can : S → S → Bool)
    (a b : Option String) : Prop :=
  b = a ∨ ∃ s t, a.bind parse = some s ∧ can s t = true ∧ b = some (asStr t)

/-- A status without allowed transitions is final. -/
theorem Moves.final (h : Moves parse asStr can a b) {s : S} (ha : a.bind parse = some s)
    (hfinal : ∀ t, can s t = false) : b = a := by
  rcases h with h | ⟨s', t, hs', hcan, -⟩
  · exact h
  · rw [ha, Option.some.injEq] at hs'
    rw [← hs', hfinal t] at hcan
    cases hcan

end Lifecycle

end ElectronixMes.Transition
