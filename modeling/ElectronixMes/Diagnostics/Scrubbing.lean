import ElectronixMes.Diagnostics.Redact
import Mathlib.Data.List.Forall2

/-!
# What a scrubbed text still shows

The scrubber judges whole words: a word is an email when its first `@` stands behind
something and before a dot, and a token when it is long, has a digit and consists of token
characters only. A token that is glued to other characters stays, and so does an email
behind a leading `@`. The words for which the judgement is right are described here by
their characters, whatever counts as a local part and a dotted domain.
-/

namespace ElectronixMes.Diagnostics

open Text

/-- What counts as the two sides of an email. -/
structure EmailShape where
  isLocal : List Char → Prop
  isDomain : List Char → Prop
  local_ne_nil : ∀ l, isLocal l → l ≠ []
  dotted : ∀ d, isDomain d → '.' ∈ d

/-- An email stands somewhere in the word. -/
def HasEmail (shape : EmailShape) (w : List Char) : Prop :=
  ∃ before loc dom behind, w = before ++ loc ++ '@' :: dom ++ behind ∧
    shape.isLocal loc ∧ shape.isDomain dom

def tokenChar (c : Char) : Bool :=
  c.isAlphanum || c == '_' || c == '-' || c == '+' || c == '/'

/-- The maximal runs of token characters: the pieces between the other characters. -/
def tokenRuns (w : List Char) : List (List Char) :=
  w.splitOnP fun c => !tokenChar c

/-- A run of 24 or more characters with a digit in it. -/
def IsSecret (run : List Char) : Prop := 24 ≤ run.length ∧ ∃ c ∈ run, c.isDigit

instance : DecidablePred IsSecret := fun run =>
  inferInstanceAs (Decidable (24 ≤ run.length ∧ ∃ c ∈ run, c.isDigit))

def HasToken (w : List Char) : Prop := ∃ run ∈ tokenRuns w, IsSecret run

instance : DecidablePred HasToken := fun w =>
  inferInstanceAs (Decidable (∃ run ∈ tokenRuns w, IsSecret run))

/-- The words of a text. -/
def words (s : String) : List (List Char) := s.toList.splitOnP isWhitespace

/-- No secret survives, and words without one stay. -/
structure Scrubbed (shape : EmailShape) (s : String) : Prop where
  tokens : ∀ run ∈ tokenRuns (scrubString s).toList, ¬ IsSecret run
  emails : ∀ w ∈ words (scrubString s), ¬ HasEmail shape w
  others : List.Forall₂ (fun w w' => ¬ HasEmail shape w → ¬ HasToken w → w' = w) (words s)
    (words (scrubString s))

/-- The first `@` of the word stands behind something, with a dot somewhere after it. -/
def AtInside (w : List Char) : Prop :=
  ∃ before behind, w = before ++ '@' :: behind ∧ before ≠ [] ∧ '@' ∉ before ∧ '.' ∈ behind

/-- The secrets of the word are those that a whole word shows. -/
structure WholeSecrets (shape : EmailShape) (w : List Char) : Prop where
  token : HasToken w → (∀ c ∈ w, tokenChar c) ∨ AtInside w
  email : HasEmail shape w → w.head? ≠ some '@'
  other : AtInside w → HasEmail shape w ∨ HasToken w

section Characters

variable {c : Char} {w : List Char}

theorem tokenChar_range (h : tokenChar c) : 0x20 < c.toNat ∧ c.toNat < 0x80 := by
  unfold tokenChar Char.isAlphanum Char.isAlpha Char.isUpper Char.isLower Char.isDigit at h
  simp only [Bool.or_eq_true, Bool.and_eq_true, decide_eq_true_eq, ge_iff_le,
    UInt32.le_iff_toNat_le, beq_iff_eq] at h
  rcases h with (((h | rfl) | rfl) | rfl) | rfl
  · simp at h
    omega
  all_goals decide

/-- White space separates runs as well. -/
theorem not_tokenChar_of_isWhitespace (h : isWhitespace c) : tokenChar c = false := by
  by_contra htoken
  have hrange := tokenChar_range (Bool.not_eq_false _ ▸ htoken)
  unfold isWhitespace at h
  simp at h
  omega

/-- A token character takes one byte. -/
theorem utf8ByteSize_of_tokenChars (h : ∀ c ∈ w, tokenChar c) :
    (String.ofList w).utf8ByteSize = w.length := by
  induction w with
  | nil => rfl
  | cons c rest ih =>
      have hc : c.utf8Size = 1 := by
        rw [Char.utf8Size_eq_one_iff, UInt32.le_iff_toNat_le]
        exact Nat.le_of_lt_succ (tokenChar_range (h c List.mem_cons_self)).2
      rw [← List.singleton_append, String.ofList_append, String.utf8ByteSize_append,
        ih fun d hd => h d (List.mem_cons_of_mem c hd)]
      simp [hc, Nat.add_comm]

theorem looksLikeToken_iff :
    looksLikeToken w ↔ (∀ c ∈ w, tokenChar c) ∧ IsSecret w := by
  have heq : looksLikeToken w =
      (decide (24 ≤ (String.ofList w).utf8ByteSize) && w.all tokenChar && w.any Char.isDigit) :=
    rfl
  rw [heq, Bool.and_eq_true, Bool.and_eq_true, decide_eq_true_eq, List.all_eq_true,
    List.any_eq_true]
  constructor
  · rintro ⟨⟨hsize, hall⟩, hdigit⟩
    rw [utf8ByteSize_of_tokenChars hall] at hsize
    exact ⟨hall, hsize, hdigit⟩
  · rintro ⟨hall, hlen, hdigit⟩
    rw [utf8ByteSize_of_tokenChars hall]
    exact ⟨⟨hlen, hall⟩, hdigit⟩

end Characters

section Words

variable {shape : EmailShape} {w : List Char}

/-- A word that is made of token characters is its only run. -/
theorem hasToken_iff_of_tokenChars (h : ∀ c ∈ w, tokenChar c) : HasToken w ↔ IsSecret w := by
  have hruns : tokenRuns w = [w] := List.splitOnP_eq_singleton (by simpa using h)
  simp [HasToken, hruns]

theorem looksLikeEmail_iff : looksLikeEmail w ↔ AtInside w := by
  unfold looksLikeEmail
  constructor
  · intro h
    split at h
    · rename_i i hi
      obtain ⟨hlt, hat, hfirst⟩ := List.findIdx?_eq_some_iff_getElem.mp hi
      rw [Bool.and_eq_true, decide_eq_true_eq, List.contains_iff_mem] at h
      refine ⟨w.take i, w.drop (i + 1), ?_, ?_, ?_, h.2⟩
      · rw [← beq_iff_eq.mp hat, List.getElem_cons_drop, List.take_append_drop]
      · rw [← List.length_pos_iff, List.length_take]
        omega
      · intro hmem
        obtain ⟨j, hj, hget⟩ := List.getElem_of_mem hmem
        rw [List.getElem_take] at hget
        rw [List.length_take] at hj
        exact hfirst j (by omega) (beq_iff_eq.mpr hget)
    · cases h
  · rintro ⟨before, behind, rfl, hne, hnot, hdot⟩
    have hnone : before.findIdx? (· == '@') = none := by
      rw [List.findIdx?_eq_none_iff]
      intro c hc
      apply beq_eq_false_iff_ne.mpr
      rintro rfl
      exact hnot hc
    have hpos : 0 < before.length := List.length_pos_iff.mpr hne
    simp [List.findIdx?_append, hnone, List.findIdx?_cons, hpos, hdot]

/-- An email has an `@` with a dot somewhere after it. -/
theorem HasEmail.exists_at (h : HasEmail shape w) :
    ∃ before behind, w = before ++ '@' :: behind ∧ '.' ∈ behind := by
  obtain ⟨before, loc, dom, behind, rfl, -, hdom⟩ := h
  refine ⟨before ++ loc, dom ++ behind, by simp, ?_⟩
  exact List.mem_append_left behind (shape.dotted dom hdom)

/-- What comes after the first `@` has all that comes after another one. -/
theorem atInside_of_append {before behind : List Char} (hw : w = before ++ '@' :: behind)
    (hdot : '.' ∈ behind) (hhead : w.head? ≠ some '@') : AtInside w := by
  obtain ⟨first, rest, hfirst, hnot⟩ :=
    List.eq_append_cons_of_mem (a := '@') (by rw [hw]; simp : '@' ∈ w)
  refine ⟨first, rest, hfirst, ?_, hnot, ?_⟩
  · rintro rfl
    apply hhead
    rw [hfirst]
    rfl
  · rcases List.append_eq_append_iff.mp (hfirst.symm.trans hw) with
      ⟨mid, hmid, heq⟩ | ⟨mid, hmid, heq⟩
    · cases mid with
      | nil => exact (List.cons.inj heq).2 ▸ hdot
      | cons c mid =>
          rw [(List.cons.inj heq).2]
          simp [hdot]
    · cases mid with
      | nil => exact (List.cons.inj heq).2 ▸ hdot
      | cons c mid =>
          obtain ⟨rfl, -⟩ := List.cons.inj heq
          apply absurd _ hnot
          rw [hmid]
          simp

theorem HasEmail.atInside (h : HasEmail shape w) (hhead : w.head? ≠ some '@') : AtInside w := by
  obtain ⟨before, behind, hw, hdot⟩ := h.exists_at
  exact atInside_of_append hw hdot hhead

theorem notMem_of_tokenChars (h : ∀ c ∈ w, tokenChar c) : '@' ∉ w := by
  intro hat
  exact absurd (h '@' hat) (by decide)

theorem AtInside.head_ne (h : AtInside w) : w.head? ≠ some '@' := by
  obtain ⟨before, behind, rfl, hne, hnot, -⟩ := h
  cases before with
  | nil => exact absurd rfl hne
  | cons c before =>
      intro hhead
      exact hnot (Option.some.inj hhead ▸ List.mem_cons_self)

theorem notMem_redacted : '@' ∉ "[redacted]".toList := by decide

/-- What is put in place of a secret shows none. -/
theorem redacted_clean (shape : EmailShape) :
    ¬ HasToken "[redacted]".toList ∧ ¬ HasEmail shape "[redacted]".toList := by
  refine ⟨by decide, ?_⟩
  intro h
  obtain ⟨before, behind, hw, -⟩ := h.exists_at
  apply notMem_redacted
  rw [hw]
  simp

/-- A word that the scrubber takes for a secret was taken rightly exactly when it has one. -/
theorem wholeSecrets_of_replaced (h : AtInside w ∨ (∀ c ∈ w, tokenChar c) ∧ IsSecret w) :
    WholeSecrets shape w ↔ HasEmail shape w ∨ HasToken w := by
  have htoken : (∀ c ∈ w, tokenChar c) ∧ IsSecret w → HasToken w := by
    rintro ⟨hall, hsecret⟩
    exact (hasToken_iff_of_tokenChars hall).mpr hsecret
  constructor
  · intro hwhole
    rcases h with hinside | hsecret
    · exact hwhole.other hinside
    · exact Or.inr (htoken hsecret)
  · intro hhas
    refine ⟨?_, ?_, fun _ => hhas⟩
    · intro _
      exact h.symm.imp_left And.left
    · rintro - hhead
      rcases h with hinside | ⟨hall, -⟩
      · exact hinside.head_ne hhead
      · exact notMem_of_tokenChars hall (List.mem_of_mem_head? hhead)

/-- A word that the scrubber keeps was kept rightly exactly when it has no secret. -/
theorem wholeSecrets_of_kept (hat : ¬ AtInside w)
    (htoken : ¬ ((∀ c ∈ w, tokenChar c) ∧ IsSecret w)) :
    WholeSecrets shape w ↔ ¬ HasToken w ∧ ¬ HasEmail shape w := by
  constructor
  · intro hwhole
    constructor
    · intro h
      rcases hwhole.token h with hall | hinside
      · exact htoken ⟨hall, (hasToken_iff_of_tokenChars hall).mp h⟩
      · exact hat hinside
    · intro h
      exact hat (h.atInside (hwhole.email h))
  · rintro ⟨hnotoken, hnoemail⟩
    constructor
    · intro h
      exact absurd h hnotoken
    · intro h
      exact absurd h hnoemail
    · intro h
      exact absurd h hat

/-- The scrubber is right about a word exactly when its secrets are those that the whole
word shows. -/
theorem scrubWord_iff : (¬ HasToken (scrubWord w) ∧ ¬ HasEmail shape (scrubWord w) ∧
      (¬ HasEmail shape w → ¬ HasToken w → scrubWord w = w)) ↔ WholeSecrets shape w := by
  by_cases hlooks : looksLikeEmail w || looksLikeToken w
  · have hword : scrubWord w = "[redacted]".toList := if_pos hlooks
    rw [Bool.or_eq_true, looksLikeEmail_iff, looksLikeToken_iff] at hlooks
    rw [hword, wholeSecrets_of_replaced hlooks]
    constructor
    · rintro ⟨-, -, hothers⟩
      by_contra hneither
      rw [not_or] at hneither
      -- a word without a secret would have to be the replacement, which has no `@`
      have hw : "[redacted]".toList = w := hothers hneither.1 hneither.2
      rcases hlooks with ⟨before, behind, hsplit, -⟩ | ⟨hall, hsecret⟩
      · apply notMem_redacted
        rw [hw, hsplit]
        simp
      · exact hneither.2 ((hasToken_iff_of_tokenChars hall).mpr hsecret)
    · intro hhas
      refine ⟨(redacted_clean shape).1, (redacted_clean shape).2, ?_⟩
      intro hemail htoken
      exact absurd hhas (not_or.mpr ⟨hemail, htoken⟩)
  · have hword : scrubWord w = w := if_neg hlooks
    rw [Bool.or_eq_true, looksLikeEmail_iff, looksLikeToken_iff, not_or] at hlooks
    rw [hword, wholeSecrets_of_kept hlooks.1 hlooks.2]
    simp

end Words

section Text

variable {shape : EmailShape} {s : String}

theorem words_scrubString (s : String) : words (scrubString s) = (words s).map scrubWord := by
  unfold words scrubString
  rw [String.toList_ofList, splitOnP_rewriteWords scrubWord_nil scrubWord_isWord]

/-- The runs of a text are those of its words. -/
theorem tokenRuns_toList (s : String) : tokenRuns s.toList = (words s).flatMap tokenRuns := by
  apply splitOnP_flatMap
  intro c hc
  rw [not_tokenChar_of_isWhitespace hc]
  rfl

/-- A text is scrubbed right exactly when the secrets of each of its words are those that
the whole word shows. -/
theorem scrubbed_iff (shape : EmailShape) (s : String) :
    Scrubbed shape s ↔ ∀ w ∈ words s, WholeSecrets shape w := by
  have htokens : (∀ run ∈ tokenRuns (scrubString s).toList, ¬ IsSecret run) ↔
      ∀ w ∈ words s, ¬ HasToken (scrubWord w) := by
    rw [tokenRuns_toList, words_scrubString]
    constructor
    · rintro h w hw ⟨run, hrun, hsecret⟩
      exact h run (List.mem_flatMap.mpr ⟨scrubWord w, List.mem_map_of_mem hw, hrun⟩) hsecret
    · intro h run hrun hsecret
      obtain ⟨_, hword, hrun⟩ := List.mem_flatMap.mp hrun
      obtain ⟨w, hw, rfl⟩ := List.mem_map.mp hword
      exact h w hw ⟨run, hrun, hsecret⟩
  have hemails : (∀ w ∈ words (scrubString s), ¬ HasEmail shape w) ↔
      ∀ w ∈ words s, ¬ HasEmail shape (scrubWord w) := by
    rw [words_scrubString, List.forall_mem_map]
  have hothers : List.Forall₂ (fun w w' => ¬ HasEmail shape w → ¬ HasToken w → w' = w) (words s)
      (words (scrubString s)) ↔
        ∀ w ∈ words s, ¬ HasEmail shape w → ¬ HasToken w → scrubWord w = w := by
    rw [words_scrubString, List.forall₂_map_right_iff, List.forall₂_same]
  simp only [← scrubWord_iff]
  constructor
  · rintro ⟨tokens, emails, others⟩ w hw
    exact ⟨htokens.mp tokens w hw, hemails.mp emails w hw, hothers.mp others w hw⟩
  · intro h
    constructor
    · apply htokens.mpr
      intro w hw
      exact (h w hw).1
    · apply hemails.mpr
      intro w hw
      exact (h w hw).2.1
    · apply hothers.mpr
      intro w hw
      exact (h w hw).2.2

example : scrubString "user jane@acme.com token abcdef0123456789ABCDEF9999 failed" =
    "user [redacted] token [redacted] failed" := by decide +kernel

/-- Letters, digits and a few signs before the `@`, two or more labels behind it. -/
def mailbox : EmailShape where
  isLocal l := l ≠ [] ∧ ∀ c ∈ l, c.isAlphanum ∨ c ∈ ['.', '_', '%', '+', '-']
  isDomain d := ∃ host rest : List Char, d = host ++ '.' :: rest ∧ host ≠ [] ∧ rest ≠ [] ∧
    ∀ c ∈ host ++ rest, c.isAlphanum ∨ c = '-' ∨ c = '.'
  local_ne_nil _ h := h.1
  dotted d h := by
    obtain ⟨host, rest, rfl, -⟩ := h
    simp

/-- A token behind an equals sign stays in the text. -/
theorem gluedToken_survives : ¬ ∀ s : String, Scrubbed mailbox s := by
  intro hall
  have htoken := (hall "login token=abcdef0123456789ABCDEF9999 failed").tokens
    "abcdef0123456789ABCDEF9999".toList (by decide +kernel)
  exact htoken ⟨by decide, '0', by decide, by decide⟩

end Text

end ElectronixMes.Diagnostics
