import Mathlib.Data.List.Basic
import Mathlib.Data.List.Chain
import Mathlib.Data.Nat.Basic

/-!
# The tokens of a JSON text

A text is a list of punctuation marks, bare words and quoted texts. The scanner reads it one
character at a time: outside a quoted text it collects a word until something ends it, inside
it follows the escapes, down to the two halves of a surrogate pair. Writing tokens and
scanning what was written gives the tokens back, as long as no two words touch.
-/

namespace ElectronixMes.Serde

inductive Token where
  | punct (c : Char)
  | word (w : List Char)
  | text (s : List Char)
  deriving DecidableEq

/-- The marks that stand for themselves. -/
def isPunct (c : Char) : Bool := c ∈ ['{', '}', '[', ']', ',', ':']

/-- The white space between tokens. -/
def isBlank (c : Char) : Bool := c ∈ [' ', '\n', '\t', '\r']

/-! ## Writing -/

/-- One character of a quoted text. -/
def escape (c : Char) : List Char :=
  match c.toNat with
  | 0x08 => ['\\', 'b']
  | 0x09 => ['\\', 't']
  | 0x0A => ['\\', 'n']
  | 0x0C => ['\\', 'f']
  | 0x0D => ['\\', 'r']
  | 0x22 => ['\\', '"']
  | 0x5C => ['\\', '\\']
  | n =>
      if n < 0x20 then ['\\', 'u', '0', '0', Nat.digitChar (n / 16), Nat.digitChar (n % 16)]
      else [c]

def quote (s : List Char) : List Char := '"' :: (s.flatMap escape ++ ['"'])

def Token.print : Token → List Char
  | punct c => [c]
  | word w => w
  | text s => quote s

/-! ## Scanning -/

/-- Where the scanner stands. Characters read are kept in reverse. -/
inductive Mode where
  | between
  | word (w : List Char)
  | text (s : List Char)
  | escaped (s : List Char)
  /-- The hexadecimal digits of a `\u` escape, behind the first half of a pair if there is one. -/
  | unit (s : List Char) (high : Option ℕ) (digits : List ℕ)
  /-- The backslash of the second half must come. -/
  | low (s : List Char) (high : ℕ)
  /-- The `u` of the second half must come. -/
  | lowEscape (s : List Char) (high : ℕ)
  deriving DecidableEq

/-- The scanner: its mode and the tokens behind it, the last one first. -/
structure Scan where
  mode : Mode
  tokens : List Token
  deriving DecidableEq

def hexVal (c : Char) : Option ℕ :=
  if '0' ≤ c ∧ c ≤ '9' then some (c.toNat - '0'.toNat)
  else if 'a' ≤ c ∧ c ≤ 'f' then some (c.toNat - 'a'.toNat + 10)
  else if 'A' ≤ c ∧ c ≤ 'F' then some (c.toNat - 'A'.toNat + 10)
  else none

/-- The character of a one-letter escape. -/
def unescape : Char → Option Char
  | '"' => some '"'
  | '\\' => some '\\'
  | '/' => some '/'
  | 'b' => some '\x08'
  | 'f' => some '\x0c'
  | 'n' => some '\n'
  | 'r' => some '\r'
  | 't' => some '\t'
  | _ => none

/-- What four digits of a `\u` escape lead to. Halves of a pair stand in order or not at all. -/
def closeUnit (s : List Char) (high : Option ℕ) (v : ℕ) : Option Mode :=
  match high with
  | none =>
      if 0xD800 ≤ v ∧ v ≤ 0xDBFF then some (.low s v)
      else if 0xDC00 ≤ v ∧ v ≤ 0xDFFF then none
      else some (.text (Char.ofNat v :: s))
  | some h =>
      if 0xDC00 ≤ v ∧ v ≤ 0xDFFF then
        some (.text (Char.ofNat (0x10000 + (h - 0xD800) * 0x400 + (v - 0xDC00)) :: s))
      else none

namespace Scan

def start : Scan := ⟨.between, []⟩

/-- The tokens read, a word at the end included; nothing inside a quoted text. -/
def flush (s : Scan) : Option (List Token) :=
  match s.mode with
  | .between => some s.tokens
  | .word w => some (.word w.reverse :: s.tokens)
  | _ => none

/-- Read one more character. -/
def step (s : Scan) (c : Char) : Option Scan :=
  match s.mode with
  | .text t =>
      if c = '"' then some ⟨.between, .text t.reverse :: s.tokens⟩
      else if c = '\\' then some { s with mode := .escaped t }
      else if c.toNat < 0x20 then none
      else some { s with mode := .text (c :: t) }
  | .escaped t =>
      if c = 'u' then some { s with mode := .unit t none [] }
      else (unescape c).map fun d => { s with mode := .text (d :: t) }
  | .unit t high digits =>
      (hexVal c).bind fun d =>
        match digits with
        | [d₂, d₁, d₀] =>
            (closeUnit t high (((d₀ * 16 + d₁) * 16 + d₂) * 16 + d)).map fun m =>
              { s with mode := m }
        | _ => some { s with mode := .unit t high (d :: digits) }
  | .low t high => if c = '\\' then some { s with mode := .lowEscape t high } else none
  | .lowEscape t high => if c = 'u' then some { s with mode := .unit t (some high) [] } else none
  | mode =>
      if c = '"' then s.flush.map fun tokens => ⟨.text [], tokens⟩
      else if isPunct c then s.flush.map fun tokens => ⟨.between, .punct c :: tokens⟩
      else if isBlank c then s.flush.map fun tokens => ⟨.between, tokens⟩
      else
        match mode with
        | .word w => some { s with mode := .word (c :: w) }
        | _ => some { s with mode := .word [c] }

end Scan

/-- The tokens of a text, if it has any sense as a list of tokens. -/
def scan (text : List Char) : Option (List Token) :=
  ((text.foldlM Scan.step Scan.start).bind Scan.flush).map List.reverse

/-! ## Scanning what was written -/

theorem hexVal_digitChar : ∀ d < 16, hexVal (Nat.digitChar d) = some d := by decide

/-- A written character is read back inside a quoted text. -/
theorem foldlM_escape (c : Char) (t : List Char) (tokens : List Token) :
    (escape c).foldlM Scan.step ⟨.text t, tokens⟩ = some ⟨.text (c :: t), tokens⟩ := by
  have hchar : ∀ n : ℕ, c.toNat = n → c = Char.ofNat n := by
    intro n hn
    rw [← hn, Char.ofNat_toNat]
  unfold escape
  split
  all_goals rename_i heq
  case h_8 =>
    split
    · rename_i hlt
      have hhigh := hexVal_digitChar (c.toNat / 16) (by omega)
      have hlow := hexVal_digitChar (c.toNat % 16) (by omega)
      have hzero : hexVal '0' = some 0 := by decide
      have hvalue : c.toNat / 16 * 16 + c.toNat % 16 = c.toNat := by omega
      have hclose : closeUnit t none c.toNat = some (.text (c :: t)) := by
        rw [closeUnit, if_neg (by omega), if_neg (by omega), Char.ofNat_toNat]
      simp [Scan.step, hhigh, hlow, hzero, hvalue, hclose]
    · rename_i hge
      have hquote : c ≠ '"' := by
        rintro rfl
        contradiction
      have hslash : c ≠ '\\' := by
        rintro rfl
        contradiction
      simp [Scan.step, hquote, hslash, hge]
  all_goals
    rw [hchar _ heq]
    rfl

/-- A character that a text carries bare: it ends no word and opens no quoted text. -/
def isBare (c : Char) : Bool := !(c = '"' || isPunct c || isBlank c)

theorem isBare_iff {c : Char} :
    isBare c = true ↔ c ≠ '"' ∧ isPunct c = false ∧ isBlank c = false := by
  simp [isBare, and_assoc]

namespace Scan

variable {s : Scan} {before : List Token}

/-- Outside a quoted text the mode is one of two. -/
theorem mode_of_flush (h : s.flush = some before) :
    s = ⟨.between, before⟩ ∨
      ∃ w tokens, s = ⟨.word w, tokens⟩ ∧ .word w.reverse :: tokens = before := by
  obtain ⟨mode, tokens⟩ := s
  cases mode with
  | between => exact Or.inl (by simpa [flush] using h)
  | word w => exact Or.inr ⟨w, tokens, rfl, by simpa [flush] using h⟩
  | text | escaped | unit | low | lowEscape => cases h

/-- Outside a quoted text a quotation mark opens one. -/
theorem step_quote (h : s.flush = some before) : s.step '"' = some ⟨.text [], before⟩ := by
  rcases mode_of_flush h with rfl | ⟨w, tokens, rfl, rfl⟩ <;> rfl

theorem step_punct (h : s.flush = some before) {c : Char} (hc : isPunct c = true) :
    s.step c = some ⟨.between, .punct c :: before⟩ := by
  have hne : c ≠ '"' := by
    rintro rfl
    cases hc
  rcases mode_of_flush h with rfl | ⟨w, tokens, rfl, rfl⟩ <;> simp [step, hne, hc, flush]

theorem step_blank (h : s.flush = some before) {c : Char} (hc : isBlank c = true) :
    s.step c = some ⟨.between, before⟩ := by
  have hne : c ≠ '"' := by
    rintro rfl
    cases hc
  have hpunct : isPunct c = false := by
    simp only [isBlank, decide_eq_true_eq, List.mem_cons, List.not_mem_nil, or_false] at hc
    rcases hc with rfl | rfl | rfl | rfl <;> rfl
  rcases mode_of_flush h with rfl | ⟨w, tokens, rfl, rfl⟩ <;> simp [step, hne, hpunct, hc, flush]

theorem step_bare {w : List Char} {c : Char} (hc : isBare c = true) :
    step ⟨.word w, before⟩ c = some ⟨.word (c :: w), before⟩ := by
  obtain ⟨hne, hpunct, hblank⟩ := isBare_iff.mp hc
  simp [step, hne, hpunct, hblank]

theorem foldlM_bare {w v : List Char} (hw : ∀ c ∈ w, isBare c = true) :
    w.foldlM step ⟨.word v, before⟩ = some ⟨.word (w.reverse ++ v), before⟩ := by
  induction w generalizing v with
  | nil => rfl
  | cons c rest ih =>
      rw [List.foldlM_cons, step_bare (hw c List.mem_cons_self)]
      simp [ih fun d hd => hw d (List.mem_cons_of_mem c hd)]

theorem foldlM_flatMap_escape (t : List Char) (v : List Char) :
    (t.flatMap escape).foldlM step ⟨.text v, before⟩ = some ⟨.text (t.reverse ++ v), before⟩ := by
  induction t generalizing v with
  | nil => rfl
  | cons c rest ih =>
      rw [List.flatMap_cons, List.foldlM_append, foldlM_escape]
      simp [ih]

end Scan

/-- What a token can be written as: a mark, a word of bare characters, any text. -/
def Token.Writable : Token → Prop
  | punct c => isPunct c = true
  | word w => w ≠ [] ∧ ∀ c ∈ w, isBare c = true
  | text _ => True

def Token.isWord : Token → Bool
  | word _ => true
  | _ => false

/-- Two tokens can be written one behind the other. -/
def Token.Apart (t u : Token) : Prop := t.isWord = true → u.isWord = false

open Token

/-- One written token, from where a token can begin. -/
theorem foldlM_print {t : Token} {s : Scan} {before : List Token} (ht : t.Writable)
    (hs : s.flush = some before) (hword : t.isWord = true → s.mode = .between) :
    ∃ s', t.print.foldlM Scan.step s = some s' ∧ s'.flush = some (t :: before) ∧
      (t.isWord = false → s'.mode = .between) := by
  cases t with
  | punct c =>
      refine ⟨⟨.between, .punct c :: before⟩, ?_, rfl, fun _ => rfl⟩
      simp [print, Scan.step_punct hs ht]
  | word w =>
      obtain ⟨hne, hbare⟩ := ht
      obtain ⟨c, rest, rfl⟩ := List.exists_cons_of_ne_nil hne
      have hc := hbare c List.mem_cons_self
      have hfirst : Scan.step s c = some ⟨.word [c], before⟩ := by
        obtain ⟨mode, tokens⟩ := s
        obtain rfl : mode = .between := hword rfl
        obtain rfl : tokens = before := by simpa [Scan.flush] using hs
        obtain ⟨hquote, hpunct, hblank⟩ := isBare_iff.mp hc
        simp [Scan.step, hquote, hpunct, hblank]
      refine ⟨⟨.word (rest.reverse ++ [c]), before⟩, ?_, ?_, fun h => Bool.noConfusion h⟩
      · rw [print, List.foldlM_cons, hfirst]
        exact Scan.foldlM_bare fun d hd => hbare d (List.mem_cons_of_mem c hd)
      · simp [Scan.flush]
  | text t =>
      refine ⟨⟨.between, .text t :: before⟩, ?_, rfl, fun _ => rfl⟩
      rw [print, quote, List.foldlM_cons, Scan.step_quote hs]
      simp [Scan.foldlM_flatMap_escape, Scan.step]

/-- Written tokens are read back in order. -/
theorem foldlM_flatMap_print {toks : List Token} {s : Scan} {before : List Token}
    (hwrite : ∀ t ∈ toks, t.Writable) (happart : toks.IsChain Apart)
    (hs : s.flush = some before)
    (hword : ∀ t ∈ toks.head?, t.isWord = true → s.mode = .between) :
    ∃ s', (toks.flatMap print).foldlM Scan.step s = some s' ∧
      s'.flush = some (toks.reverse ++ before) := by
  induction toks generalizing s before with
  | nil => exact ⟨s, rfl, hs⟩
  | cons t rest ih =>
      obtain ⟨mid, hmid, hflush, hmode⟩ :=
        foldlM_print (hwrite t List.mem_cons_self) hs (hword t rfl)
      have hnext : ∀ u ∈ rest.head?, u.isWord = true → mid.mode = .between := by
        intro u hu huword
        apply hmode
        rw [← Bool.not_eq_true]
        intro htword
        have hsep : t.Apart u := (List.isChain_cons.mp happart).1 u hu
        exact absurd huword (by rw [hsep htword]; exact Bool.false_ne_true)
      obtain ⟨s', hs', hflush'⟩ := ih (fun u hu => hwrite u (List.mem_cons_of_mem t hu))
        (List.isChain_cons.mp happart).2 hflush hnext
      refine ⟨s', ?_, ?_⟩
      · rw [List.flatMap_cons, List.foldlM_append, hmid]
        exact hs'
      · rw [hflush', List.reverse_cons, List.append_assoc]
        rfl

theorem foldlM_blanks {pad : List Char} {s : Scan} {before : List Token}
    (hpad : ∀ c ∈ pad, isBlank c = true) (hs : s.flush = some before) :
    ∃ s', pad.foldlM Scan.step s = some s' ∧ s'.flush = some before ∧
      (s.mode = .between → s'.mode = .between) := by
  induction pad generalizing s with
  | nil => exact ⟨s, rfl, hs, id⟩
  | cons c rest ih =>
      obtain ⟨s', hs', hflush, hmode⟩ := ih (s := ⟨.between, before⟩)
        (fun d hd => hpad d (List.mem_cons_of_mem c hd)) rfl
      refine ⟨s', ?_, hflush, fun _ => hmode rfl⟩
      rw [List.foldlM_cons, Scan.step_blank hs (hpad c List.mem_cons_self)]
      exact hs'

/-- Scanning undoes writing, whatever white space stands around what was written. -/
theorem scan_print {toks : List Token} {pad pad' : List Char}
    (hwrite : ∀ t ∈ toks, t.Writable) (happart : toks.IsChain Apart)
    (hpad : ∀ c ∈ pad, isBlank c = true) (hpad' : ∀ c ∈ pad', isBlank c = true) :
    scan (pad ++ toks.flatMap print ++ pad') = some toks := by
  obtain ⟨s₁, h₁, hflush₁, hmode₁⟩ := foldlM_blanks (s := Scan.start) hpad rfl
  obtain ⟨s₂, h₂, hflush₂⟩ :=
    foldlM_flatMap_print hwrite happart hflush₁ fun _ _ _ => hmode₁ rfl
  obtain ⟨s₃, h₃, hflush₃, -⟩ := foldlM_blanks hpad' hflush₂
  simp only [scan, List.foldlM_append, h₁, h₂, h₃, bind, Option.bind]
  rw [hflush₃, Option.map_some, List.reverse_append, List.reverse_reverse]
  rfl

/-! ## Control characters -/

theorem le_toNat_escape {c d : Char} (hd : d ∈ escape c) : 0x20 ≤ d.toNat := by
  unfold escape at hd
  split at hd
  case h_8 =>
    split at hd
    · rename_i hlt
      have hdigit : ∀ n < 16, 0x20 ≤ (Nat.digitChar n).toNat := by decide
      simp only [List.mem_cons, List.not_mem_nil, or_false] at hd
      rcases hd with rfl | rfl | rfl | rfl | rfl | rfl
      · decide
      · decide
      · decide
      · decide
      · exact hdigit _ (by omega)
      · exact hdigit _ (by omega)
    · rename_i hge
      rw [List.mem_singleton.mp hd]
      exact not_lt.mp hge
  all_goals
    simp only [List.mem_cons, List.not_mem_nil, or_false] at hd
    rcases hd with rfl | rfl <;> decide

/-- A quoted text is one line, whatever characters the text has. -/
theorem newline_notMem_quote (s : List Char) : '\n' ∉ quote s := by
  intro h
  have hflat : '\n' ∈ s.flatMap escape := by simpa [quote] using h
  obtain ⟨c, -, hc⟩ := List.mem_flatMap.mp hflat
  exact absurd (le_toNat_escape hc) (by decide)

theorem newline_notMem_print {t : Token} (ht : t.Writable) : '\n' ∉ t.print := by
  cases t with
  | punct c =>
      rw [print, List.mem_singleton]
      rintro rfl
      cases ht
  | word w => exact fun h => absurd (ht.2 _ h) (by decide)
  | text s => exact newline_notMem_quote s

end ElectronixMes.Serde
