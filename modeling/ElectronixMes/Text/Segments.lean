import Mathlib.Data.List.Basic
import Mathlib.Data.List.TakeWhile

/-!
# Segments of a text

A text is split behind each separator, every segment keeping its own. Rewriting the part
of each segment before the separator puts the text together again word by word; it is
idempotent when the rewriting of a word is and brings in no separator.

A bounded split cuts at the first separators only: its last piece keeps what separators
are left.

A text of lines may be cut anywhere: the segments that are ended are whole lines.
-/

namespace ElectronixMes.Text

variable {α : Type*} (p : α → Bool)

/-- Split behind every separator; nothing is left out. -/
def splitInclusive : List α → List (List α)
  | [] => []
  | c :: rest =>
      if p c then [c] :: splitInclusive rest
      else
        match splitInclusive rest with
        | [] => [[c]]
        | w :: ws => (c :: w) :: ws

/-- The text without its trailing separators. -/
def trimEnd (w : List α) : List α := (w.reverse.dropWhile p).reverse

/-- Rewrite every segment up to its trailing separators. -/
def rewriteWords (f : List α → List α) (s : List α) : List α :=
  (splitInclusive p s).flatMap fun w => f (trimEnd p w) ++ w.drop (trimEnd p w).length

/-- No separator occurs. -/
def IsWord (w : List α) : Prop := ∀ c ∈ w, p c = false

variable {p} {body rest : List α} {c : α}

/-- A text is a word, or a word with a separator and a text behind it. -/
theorem words_induction {P : List α → Prop} (last : ∀ body, IsWord p body → P body)
    (more : ∀ body c rest, IsWord p body → p c = true → P rest → P (body ++ c :: rest))
    (s : List α) : P s := by
  have hgeneral : ∀ body, IsWord p body → P (body ++ s) := by
    induction s with
    | nil =>
        intro body hbody
        rw [List.append_nil]
        exact last body hbody
    | cons c rest ih =>
        intro body hbody
        cases hc : p c with
        | true => exact more body c rest hbody hc (ih [] fun _ h => absurd h List.not_mem_nil)
        | false =>
            rw [List.append_cons]
            apply ih
            intro d hd
            rcases List.mem_append.mp hd with hd | hd
            · exact hbody d hd
            · rw [List.mem_singleton.mp hd]
              exact hc
  exact hgeneral [] fun _ h => absurd h List.not_mem_nil

theorem splitInclusive_word (h : IsWord p body) (hne : body ≠ []) :
    splitInclusive p body = [body] := by
  induction body with
  | nil => exact absurd rfl hne
  | cons c rest ih =>
      have hc : p c = false := h c List.mem_cons_self
      have hrest : IsWord p rest := fun d hd => h d (List.mem_cons_of_mem c hd)
      rw [splitInclusive, if_neg (by simp [hc])]
      cases rest with
      | nil => rfl
      | cons d more =>
          rw [ih hrest (List.cons_ne_nil d more)]

theorem splitInclusive_segment (h : IsWord p body) (hc : p c = true) :
    splitInclusive p (body ++ c :: rest) = (body ++ [c]) :: splitInclusive p rest := by
  induction body with
  | nil => rw [List.nil_append, splitInclusive, if_pos hc, List.nil_append]
  | cons d body ih =>
      have hd : p d = false := h d List.mem_cons_self
      rw [List.cons_append, splitInclusive, if_neg (by simp [hd]),
        ih fun e he => h e (List.mem_cons_of_mem d he), List.cons_append]

theorem trimEnd_word (h : IsWord p body) : trimEnd p body = body := by
  unfold trimEnd
  have hkeep : body.reverse.dropWhile p = body.reverse := by
    cases hrev : body.reverse with
    | nil => rfl
    | cons d more =>
        have hd : d ∈ body := List.mem_reverse.mp (hrev ▸ List.mem_cons_self)
        rw [List.dropWhile_cons_of_neg (by simp [h d hd])]
  rw [hkeep, List.reverse_reverse]

theorem trimEnd_segment (h : IsWord p body) (hc : p c = true) :
    trimEnd p (body ++ [c]) = body := by
  unfold trimEnd
  rw [List.reverse_append, List.reverse_singleton, List.singleton_append,
    List.dropWhile_cons_of_pos hc]
  exact trimEnd_word h

theorem rewriteWords_word {f : List α → List α} (hnil : f [] = []) (h : IsWord p body) :
    rewriteWords p f body = f body := by
  unfold rewriteWords
  by_cases hne : body = []
  · rw [hne, hnil]
    rfl
  · rw [splitInclusive_word h hne, List.flatMap_singleton, trimEnd_word h, List.drop_length,
      List.append_nil]

theorem rewriteWords_segment {f : List α → List α} (h : IsWord p body) (hc : p c = true) :
    rewriteWords p f (body ++ c :: rest) = f body ++ c :: rewriteWords p f rest := by
  unfold rewriteWords
  rw [splitInclusive_segment h hc, List.flatMap_cons, trimEnd_segment h hc, List.drop_left]
  simp

/-- Rewriting again changes nothing. -/
theorem rewriteWords_idem {f : List α → List α} (hnil : f [] = [])
    (hword : ∀ w, IsWord p w → IsWord p (f w)) (hidem : ∀ w, IsWord p w → f (f w) = f w)
    (s : List α) : rewriteWords p f (rewriteWords p f s) = rewriteWords p f s := by
  induction s using words_induction (p := p) with
  | last body h =>
      rw [rewriteWords_word hnil h, rewriteWords_word hnil (hword body h), hidem body h]
  | more body c rest h hc ih =>
      rw [rewriteWords_segment h hc, rewriteWords_segment (hword body h) hc, hidem body h, ih]

/-- Each word of the rewritten text is the rewritten word. -/
theorem splitOnP_rewriteWords {f : List α → List α} (hnil : f [] = [])
    (hword : ∀ w, IsWord p w → IsWord p (f w)) (s : List α) :
    (rewriteWords p f s).splitOnP p = (s.splitOnP p).map f := by
  induction s using words_induction (p := p) with
  | last body h =>
      rw [rewriteWords_word hnil h, List.splitOnP_eq_singleton h,
        List.splitOnP_eq_singleton (hword body h), List.map_singleton]
  | more body c rest h hc ih =>
      rw [rewriteWords_segment h hc, List.splitOnP_append_cons_of_forall_mem h c hc,
        List.splitOnP_append_cons_of_forall_mem (hword body h) c hc, ih, List.map_cons]

/-- The pieces between more separators are the pieces of the pieces. -/
theorem splitOnP_flatMap {q : α → Bool} (hq : ∀ c, p c = true → q c = true) (s : List α) :
    s.splitOnP q = (s.splitOnP p).flatMap fun w => w.splitOnP q := by
  induction s using words_induction (p := p) with
  | last body h => rw [List.splitOnP_eq_singleton h, List.flatMap_singleton]
  | more body c rest h hc ih =>
      rw [List.splitOnP_append_cons_of_forall_mem h c hc, List.flatMap_cons,
        List.splitOnP_append_cons body rest (hq c hc), ih]

section Bounded

/-- At most `n` pieces between the separators. The last of them is the rest of the text. -/
def splitn (p : α → Bool) : ℕ → List α → List (List α)
  | 0, _ => []
  | 1, s => [s]
  | n + 2, s =>
      match s.dropWhile fun c => !p c with
      | [] => [s]
      | _ :: rest => s.takeWhile (fun c => !p c) :: splitn p (n + 1) rest

theorem splitn_word (n : ℕ) (h : IsWord p body) : splitn p (n + 1) body = [body] := by
  cases n with
  | zero => rfl
  | succ n =>
      have hdrop : body.dropWhile (fun c => !p c) = [] := by
        apply List.dropWhile_eq_nil_iff.mpr
        intro c hc
        simp [h c hc]
      simp only [splitn, hdrop]

theorem splitn_segment (n : ℕ) (h : IsWord p body) (hc : p c = true) :
    splitn p (n + 2) (body ++ c :: rest) = body :: splitn p (n + 1) rest := by
  have hbody : ∀ d ∈ body, (!p d) = true := by
    intro d hd
    simp [h d hd]
  have hdrop : (body ++ c :: rest).dropWhile (fun d => !p d) = c :: rest := by
    rw [List.dropWhile_append_of_pos hbody, List.dropWhile_cons_of_neg (by simp [hc])]
  have htake : (body ++ c :: rest).takeWhile (fun d => !p d) = body := by
    rw [List.takeWhile_append_of_pos hbody, List.takeWhile_cons_of_neg (by simp [hc]),
      List.append_nil]
  simp only [splitn, hdrop, htake]

/-- The first of several pieces is the word before the first separator, whatever the pieces
behind it hold. -/
theorem splitn_eq_cons_cons_iff {n : ℕ} {s w v : List α} {ws : List (List α)} :
    splitn p (n + 2) s = w :: v :: ws ↔
      IsWord p w ∧ ∃ c rest, p c = true ∧ s = w ++ c :: rest ∧ splitn p (n + 1) rest = v :: ws := by
  constructor
  · intro hsplit
    induction s using words_induction (p := p) with
    | last body hword =>
        rw [splitn_word (n + 1) hword] at hsplit
        simp at hsplit
    | more body c rest hword hc _ =>
        rw [splitn_segment n hword hc] at hsplit
        obtain ⟨hhead, htail⟩ := List.cons.inj hsplit
        subst hhead
        exact ⟨hword, c, rest, hc, rfl, htail⟩
  · intro hcut
    obtain ⟨hword, c, rest, hc, hs, hrest⟩ := hcut
    rw [hs, splitn_segment n hword hc, hrest]

theorem splitn_one (p : α → Bool) (s : List α) : splitn p 1 s = [s] := rfl

end Bounded

section Lines

/-- The segments that a separator ends; what is behind the last separator is not among them. -/
def ended (p : α → Bool) (s : List α) : List (List α) :=
  (splitInclusive p s).filter fun w => w.getLast?.any p

theorem ended_word (h : IsWord p body) : ended p body = [] := by
  by_cases hne : body = []
  · rw [hne]
    rfl
  · have hlast : p (body.getLast hne) = false := h _ (List.getLast_mem hne)
    simp [ended, splitInclusive_word h hne, List.getLast?_eq_some_getLast hne, hlast]

theorem ended_segment (h : IsWord p body) (hc : p c = true) :
    ended p (body ++ c :: rest) = (body ++ [c]) :: ended p rest := by
  simp [ended, splitInclusive_segment h hc, hc]

theorem countP_word (h : IsWord p body) : body.countP p = 0 := by
  rw [List.countP_eq_zero]
  intro c hc
  simp [h c hc]

/-- Wherever a text of lines is cut, its ended segments are the first lines, as many as there
are separators before the cut. -/
theorem ended_take {lines : List (List α)} (h : ∀ l ∈ lines, IsWord p l) (hc : p c = true)
    (n : ℕ) :
    ended p ((lines.flatMap (· ++ [c])).take n) =
      (lines.map (· ++ [c])).take (((lines.flatMap (· ++ [c])).take n).countP p) := by
  induction lines generalizing n with
  | nil => simp [ended, splitInclusive]
  | cons l rest ih =>
      have hl := h l List.mem_cons_self
      rw [List.flatMap_cons, List.append_assoc, List.singleton_append]
      rcases Nat.lt_or_ge l.length n with hlong | hshort
      · -- the cut comes behind the separator of the first line
        obtain ⟨m, rfl⟩ : ∃ m, n = l.length + (m + 1) := ⟨n - l.length - 1, by omega⟩
        rw [List.take_length_add_append, List.take_succ_cons, ended_segment hl hc,
          ih (fun w hw => h w (List.mem_cons_of_mem l hw)), List.countP_append,
          countP_word hl, List.countP_cons_of_pos hc, Nat.zero_add, List.map_cons,
          List.take_succ_cons]
      · have hword : IsWord p (l.take n) := fun d hd => hl d (List.mem_of_mem_take hd)
        rw [List.take_append_of_le_length hshort, ended_word hword, countP_word hword,
          List.take_zero]

/-- A text without the separators at either end. -/
def trim (p : α → Bool) (s : List α) : List α := trimEnd p (s.dropWhile p)

theorem trimEnd_append {pad : List α} (hpad : ∀ c ∈ pad, p c = true)
    (hlast : ∀ c ∈ body.getLast?, p c = false) : trimEnd p (body ++ pad) = body := by
  have hrev : ∀ c ∈ pad.reverse, p c = true := fun c hc => hpad c (List.mem_reverse.mp hc)
  have hkeep : body.reverse.dropWhile p = body.reverse := by
    cases hcases : body.reverse with
    | nil => rfl
    | cons c more =>
        have hc : c ∈ body.getLast? := by rw [← List.head?_reverse, hcases]; rfl
        rw [List.dropWhile_cons_of_neg (by simp [hlast c hc])]
  rw [trimEnd, List.reverse_append, List.dropWhile_append_of_pos hrev, hkeep,
    List.reverse_reverse]

/-- What begins and ends with other characters is what trimming leaves. -/
theorem trim_append {pad pad' : List α} (hne : body ≠ []) (hpad : ∀ c ∈ pad, p c = true)
    (hpad' : ∀ c ∈ pad', p c = true) (hhead : ∀ c ∈ body.head?, p c = false)
    (hlast : ∀ c ∈ body.getLast?, p c = false) : trim p (pad ++ body ++ pad') = body := by
  obtain ⟨c, more, rfl⟩ := List.exists_cons_of_ne_nil hne
  have hc : p c = false := hhead c rfl
  rw [trim, List.append_assoc, List.dropWhile_append_of_pos hpad, List.cons_append,
    List.dropWhile_cons_of_neg (by simp [hc]), ← List.cons_append]
  exact trimEnd_append hpad' hlast

end Lines

end ElectronixMes.Text
