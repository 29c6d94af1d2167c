import ElectronixMes.Serde.Json
import ElectronixMes.Serde.Tokens

/-!
# Values as texts

A value is written compactly and read back by a machine that keeps the containers it stands
in on a stack, of which it allows a bounded number. Integers that do not fit 64 bits are read
as floats. How a float is written and read belongs to a library.
-/

namespace ElectronixMes.Serde

/-- The texts of the numbers that are no 64-bit integers. -/
structure FloatText where
  print : ℚ → List Char
  read : List Char → Option ℚ

/-- No such number has a text. -/
def noFloats : FloatText := ⟨fun _ => [], fun _ => none⟩

/-! ## Words -/

/-- `0`, or digits without a leading zero. -/
def natural (w : List Char) : Option ℕ :=
  if w = ['0'] ∨ w ≠ [] ∧ w.head? ≠ some '0' ∧ w.all Char.isDigit then
    some (Nat.ofDigitChars 10 w 0)
  else none

def integer : List Char → Option Int
  | '-' :: w => (natural w).map fun n => -Int.ofNat n
  | w => (natural w).map Int.ofNat

/-- The part of a number behind its integer part and its fraction. -/
def isExponent : List Char → Bool
  | [] => true
  | e :: w =>
      (e = 'e' || e = 'E') &&
        match w with
        | '+' :: digits | '-' :: digits => !digits.isEmpty && digits.all Char.isDigit
        | digits => !digits.isEmpty && digits.all Char.isDigit

/-- A number, whatever its parts. -/
def isNumber (w : List Char) : Bool :=
  let unsigned := if w.head? = some '-' then w.tail else w
  (natural (unsigned.takeWhile Char.isDigit)).isSome &&
    match unsigned.dropWhile Char.isDigit with
    | '.' :: w =>
        !(w.takeWhile Char.isDigit).isEmpty && isExponent (w.dropWhile Char.isDigit)
    | w => isExponent w

/-- The integers that are kept as such. -/
def Fits64 (n : Int) : Prop := -9223372036854775808 ≤ n ∧ n < 18446744073709551616

instance (n : Int) : Decidable (Fits64 n) := inferInstanceAs (Decidable (_ ∧ _))

/-- The digits of an integer. -/
def printInt : Int → List Char
  | .ofNat n => Nat.toDigits 10 n
  | .negSucc n => '-' :: Nat.toDigits 10 (n + 1)

section Words

variable (ft : FloatText)

def readNumber (w : List Char) : Option Json :=
  match integer w with
  | some n => if Fits64 n ∧ w ≠ ['-', '0'] then some (.int n) else (ft.read w).map .float
  | none => if isNumber w then (ft.read w).map .float else none

/-- The value of a bare word. -/
def readWord (w : List Char) : Option Json :=
  if w = "null".toList then some .null
  else if w = "true".toList then some (.bool true)
  else if w = "false".toList then some (.bool false)
  else readNumber ft w

end Words

/-! ## Writing -/

section Writing

variable (ft : FloatText)

mutual

/-- The tokens of a value. -/
def tokens : Json → List Token
  | .null => [.word "null".toList]
  | .bool true => [.word "true".toList]
  | .bool false => [.word "false".toList]
  | .int n => [.word (printInt n)]
  | .float x => [.word (ft.print x)]
  | .str s => [.text s.toList]
  | .arr items => .punct '[' :: itemTokens items
  | .obj fields => .punct '{' :: fieldTokens fields

/-- The tokens of the items of an array, the closing bracket included. -/
def itemTokens : List Json → List Token
  | [] => [.punct ']']
  | [v] => tokens v ++ [.punct ']']
  | v :: rest => tokens v ++ .punct ',' :: itemTokens rest

/-- The tokens of the members of an object, the closing brace included. -/
def fieldTokens : List (String × Json) → List Token
  | [] => [.punct '}']
  | [(k, v)] => .text k.toList :: .punct ':' :: (tokens v ++ [.punct '}'])
  | (k, v) :: rest => .text k.toList :: .punct ':' :: (tokens v ++ .punct ',' :: fieldTokens rest)

end

/-- `serde_json::to_string`. -/
def render (v : Json) : List Char := (tokens ft v).flatMap Token.print

end Writing

/-! ## Reading -/

/-- A container that is being read; an object with the key of the value that comes next. -/
inductive Frame where
  | arr (items : List Json)
  | obj (fields : List (String × Json)) (key : String)

/-- What may come next, and the containers it stands in. -/
inductive Reading where
  /-- A value. -/
  | value (stack : List Frame)
  /-- The first item of an array, or its end. -/
  | opened (stack : List Frame)
  /-- A comma, or the end of the array. -/
  | inArr (items : List Json) (stack : List Frame)
  /-- A key; an object without members may end instead. -/
  | member (fields : List (String × Json)) (stack : List Frame)
  /-- The colon behind a key. -/
  | colon (fields : List (String × Json)) (key : String) (stack : List Frame)
  /-- A comma, or the end of the object. -/
  | inObj (fields : List (String × Json)) (stack : List Frame)
  /-- Nothing. -/
  | done (v : Json)

/-- `remaining_depth` of the parser: a container may stand in fewer others than this. -/
def recursionLimit : ℕ := 128

namespace Reading

/-- A value has been read. -/
def deliver (v : Json) : List Frame → Reading
  | [] => done v
  | .arr items :: stack => inArr (items ++ [v]) stack
  | .obj fields k :: stack => inObj (fields ++ [(k, v)]) stack

section Step

variable (ft : FloatText)

/-- The token with which a value begins. -/
def valueStep (stack : List Frame) : Token → Option Reading
  | .word w => (readWord ft w).map fun v => deliver v stack
  | .text s => some (deliver (.str (String.ofList s)) stack)
  | .punct c =>
      if stack.length + 1 < recursionLimit then
        if c = '[' then some (opened stack)
        else if c = '{' then some (member [] stack)
        else none
      else none

def step : Reading → Token → Option Reading
  | value stack, t => valueStep ft stack t
  | opened stack, t =>
      if t = .punct ']' then some (deliver (.arr []) stack) else valueStep ft (.arr [] :: stack) t
  | inArr items stack, t =>
      if t = .punct ',' then some (value (.arr items :: stack))
      else if t = .punct ']' then some (deliver (.arr items) stack)
      else none
  | member fields stack, t =>
      match t with
      | .text s => some (colon fields (String.ofList s) stack)
      | .punct c => if c = '}' ∧ fields = [] then some (deliver (.obj []) stack) else none
      | .word _ => none
  | colon fields k stack, t =>
      if t = .punct ':' then some (value (.obj fields k :: stack)) else none
  | inObj fields stack, t =>
      if t = .punct ',' then some (member fields stack)
      else if t = .punct '}' then some (deliver (.obj fields) stack)
      else none
  | done _, _ => none

end Step

def result : Reading → Option Json
  | done v => some v
  | _ => none

end Reading

/-- `serde_json::from_str`, up to the value. -/
def parse (ft : FloatText) (text : List Char) : Option Json :=
  ((scan text).bind fun toks => toks.foldlM (Reading.step ft) (.value [])).bind Reading.result

/-! ## Numerals -/

theorem head?_toDigits {n : ℕ} (hn : 0 < n) : (Nat.toDigits 10 n).head? ≠ some '0' := by
  induction n using Nat.strong_induction_on with
  | _ n ih =>
      rcases lt_or_ge n 10 with hlt | hge
      · rw [Nat.toDigits_of_lt_base hlt]
        have hdigit : ∀ m < 10, 0 < m → [Nat.digitChar m].head? ≠ some '0' := by decide
        exact hdigit n hlt hn
      · rw [Nat.toDigits_of_base_le (by omega) hge,
          List.head?_append_of_ne_nil _ Nat.toDigits_ne_nil]
        exact ih (n / 10) (by omega) (by omega)

theorem natural_toDigits (n : ℕ) : natural (Nat.toDigits 10 n) = some n := by
  unfold natural
  rw [if_pos, Nat.ofDigitChars_toDigits (by decide) (by decide)]
  rcases Nat.eq_zero_or_pos n with rfl | hn
  · exact Or.inl (Nat.toDigits_zero 10)
  · refine Or.inr ⟨Nat.toDigits_ne_nil, head?_toDigits hn, ?_⟩
    rw [List.all_eq_true]
    exact fun c hc => Nat.isDigit_of_mem_toDigits (by decide) (by decide) hc

/-- No digit is a minus sign. -/
theorem integer_toDigits (n : ℕ) : integer (Nat.toDigits 10 n) = some (n : Int) := by
  have hnat := natural_toDigits n
  unfold integer
  split
  · rename_i w heq
    have hminus : '-' ∈ Nat.toDigits 10 n := heq ▸ List.mem_cons_self
    exact absurd (Nat.isDigit_of_mem_toDigits (by decide) (by decide) hminus) (by decide)
  · rw [hnat, Option.map_some]
    rfl

theorem integer_printInt (n : Int) : integer (printInt n) = some n := by
  cases n with
  | ofNat n => exact integer_toDigits n
  | negSucc n =>
      rw [printInt, integer, natural_toDigits, Option.map_some, Int.negSucc_eq]
      rfl

theorem mem_printInt {n : Int} {c : Char} (hc : c ∈ printInt n) : c.isDigit = true ∨ c = '-' := by
  cases n with
  | ofNat n => exact Or.inl (Nat.isDigit_of_mem_toDigits (by decide) (by decide) hc)
  | negSucc n =>
      rcases List.mem_cons.mp hc with rfl | hc
      · exact Or.inr rfl
      · exact Or.inl (Nat.isDigit_of_mem_toDigits (by decide) (by decide) hc)

theorem printInt_ne_nil (n : Int) : printInt n ≠ [] := by
  cases n with
  | ofNat n => exact Nat.toDigits_ne_nil
  | negSucc n => exact List.cons_ne_nil _ _

theorem isBare_of_mem_printInt {n : Int} {c : Char} (hc : c ∈ printInt n) : isBare c = true := by
  rcases mem_printInt hc with hdigit | rfl
  · rw [isBare_iff]
    refine ⟨?_, ?_, ?_⟩
    · rintro rfl
      cases hdigit
    · rw [← Bool.not_eq_true]
      intro hpunct
      simp only [isPunct, decide_eq_true_eq, List.mem_cons, List.not_mem_nil, or_false] at hpunct
      rcases hpunct with rfl | rfl | rfl | rfl | rfl | rfl <;> cases hdigit
    · rw [← Bool.not_eq_true]
      intro hblank
      simp only [isBlank, decide_eq_true_eq, List.mem_cons, List.not_mem_nil, or_false] at hblank
      rcases hblank with rfl | rfl | rfl | rfl <;> cases hdigit
  · decide

/-- A word with a letter is no integer. -/
theorem printInt_ne {n : Int} {w : List Char} {c : Char} (hc : c ∈ w) (hdigit : c.isDigit = false)
    (hminus : c ≠ '-') : printInt n ≠ w := by
  rintro rfl
  rcases mem_printInt hc with h | h
  · rw [hdigit] at h
    cases h
  · exact hminus h

theorem readWord_printInt (ft : FloatText) {n : Int} (hn : Fits64 n) :
    readWord ft (printInt n) = some (.int n) := by
  have hnull : printInt n ≠ "null".toList := printInt_ne (c := 'n') (by decide) rfl (by decide)
  have htrue : printInt n ≠ "true".toList := printInt_ne (c := 't') (by decide) rfl (by decide)
  have hfalse : printInt n ≠ "false".toList := printInt_ne (c := 'f') (by decide) rfl (by decide)
  have hzero : printInt n ≠ ['-', '0'] := by
    intro h
    have hread := integer_printInt n
    rw [h] at hread
    have hn : n = 0 := by simpa [integer, natural, Nat.ofDigitChars] using hread.symm
    rw [hn] at h
    cases h
  rw [readWord, if_neg hnull, if_neg htrue, if_neg hfalse, readNumber, integer_printInt]
  exact if_pos ⟨hn, hzero⟩

/-! ## Reading what was written -/

/-- A float whose text is one word and is read as a float. -/
def FloatText.Legible (ft : FloatText) (x : ℚ) : Prop :=
  ft.print x ≠ [] ∧ (∀ c ∈ ft.print x, isBare c = true) ∧
    ∃ y, readWord ft (ft.print x) = some (.float y)

/-- The float that the text of a float is read as. -/
def FloatText.reread (ft : FloatText) (x : ℚ) : ℚ :=
  match readWord ft (ft.print x) with
  | some (.float y) => y
  | _ => x

/-- A float whose text is read back. -/
def FloatText.Reads (ft : FloatText) (x : ℚ) : Prop := ft.Legible x ∧ ft.reread x = x

theorem FloatText.Legible.readWord_eq {ft : FloatText} {x : ℚ} (h : ft.Legible x) :
    readWord ft (ft.print x) = some (.float (ft.reread x)) := by
  obtain ⟨y, hy⟩ := h.2.2
  rw [reread, hy]

/-- A value that a text can carry, with at most this many containers inside each other and floats
of some kind. -/
def Json.Carried (float : ℚ → Prop) : ℕ → Json → Prop
  | _, .int n => Fits64 n
  | _, .float x => float x
  | 0, .arr _ => False
  | 0, .obj _ => False
  | depth + 1, .arr items => ∀ v ∈ items, v.Carried float depth
  | depth + 1, .obj fields => ∀ p ∈ fields, p.2.Carried float depth
  | _, _ => True

/-- A value that a text can carry so that it is read back. -/
abbrev Json.Fits (ft : FloatText) : ℕ → Json → Prop := Json.Carried ft.Reads

mutual

/-- What is read of a value. -/
def Json.reread (ft : FloatText) : Json → Json
  | .float x => .float (ft.reread x)
  | .arr items => .arr (Json.rereadItems ft items)
  | .obj fields => .obj (Json.rereadFields ft fields)
  | .null => .null
  | .bool b => .bool b
  | .int n => .int n
  | .str s => .str s

def Json.rereadItems (ft : FloatText) : List Json → List Json
  | [] => []
  | v :: rest => v.reread ft :: Json.rereadItems ft rest

def Json.rereadFields (ft : FloatText) : List (String × Json) → List (String × Json)
  | [] => []
  | (k, v) :: rest => (k, v.reread ft) :: Json.rereadFields ft rest

end

/-- No container. -/
def Json.isScalar : Json → Bool
  | .arr _ => false
  | .obj _ => false
  | _ => true

/-- A value that is carried is a scalar, or a container of values one depth less. -/
theorem Json.Carried.induction {float : ℚ → Prop} {motive : ℕ → Json → Prop}
    (scalar : ∀ depth v, v.isScalar = true → v.Carried float 0 → motive depth v)
    (arr : ∀ depth items, (∀ v ∈ items, motive depth v) → motive (depth + 1) (.arr items))
    (obj : ∀ depth fields, (∀ p ∈ fields, motive depth p.2) → motive (depth + 1) (.obj fields))
    {depth : ℕ} {v : Json} (h : v.Carried float depth) : motive depth v := by
  induction depth generalizing v with
  | zero =>
      cases v with
      | arr items => exact h.elim
      | obj fields => exact h.elim
      | null | bool | int | float | str => exact scalar 0 _ rfl h
  | succ depth ih =>
      cases v with
      | arr items => exact arr depth items fun v hv => ih (h v hv)
      | obj fields => exact obj depth fields fun p hp => ih (h p hp)
      | null | bool | int | float | str => exact scalar _ _ rfl h

/-- What a text of some depth carries, a deeper one carries, too. -/
theorem Json.Carried.mono {float : ℚ → Prop} {depth depth' : ℕ} {v : Json}
    (h : v.Carried float depth) (hle : depth ≤ depth') : v.Carried float depth' := by
  revert depth'
  refine Json.Carried.induction
    (motive := fun depth v => ∀ {depth' : ℕ}, depth ≤ depth' → v.Carried float depth')
    ?scalar ?arr ?obj h
  case scalar =>
    intro _ v hscalar h depth' _
    cases v with
    | arr | obj => cases hscalar
    | int n => cases depth' <;> exact h
    | float x => cases depth' <;> exact h
    | null | bool | str => cases depth' <;> trivial
  case arr =>
    intro depth items ih depth' hle
    obtain ⟨k, rfl⟩ := Nat.exists_eq_add_of_lt (Nat.lt_of_succ_le hle)
    exact fun v hv => ih v hv (Nat.le_add_right depth k)
  case obj =>
    intro depth fields ih depth' hle
    obtain ⟨k, rfl⟩ := Nat.exists_eq_add_of_lt (Nat.lt_of_succ_le hle)
    exact fun p hp => ih p hp (Nat.le_add_right depth k)

theorem Json.rereadItems_eq (ft : FloatText) (items : List Json) :
    Json.rereadItems ft items = items.map (Json.reread ft) := by
  induction items with
  | nil => rfl
  | cons v rest ih => rw [rereadItems, ih, List.map_cons]

theorem Json.rereadFields_eq (ft : FloatText) (fields : List (String × Json)) :
    Json.rereadFields ft fields = fields.map fun p => (p.1, p.2.reread ft) := by
  induction fields with
  | nil => rfl
  | cons p rest ih =>
      obtain ⟨k, v⟩ := p
      rw [rereadFields, ih, List.map_cons]

/-- A value that fits is read as it was. -/
theorem Json.Carried.reread_eq {ft : FloatText} {depth : ℕ} {v : Json} (h : v.Fits ft depth) :
    v.reread ft = v := by
  refine Json.Carried.induction (motive := fun _ v => v.reread ft = v) ?scalar ?arr ?obj h
  case scalar =>
    intro _ v hscalar h
    cases v with
    | arr | obj => cases hscalar
    | float x => rw [Json.reread, h.2]
    | null | bool | int | str => rfl
  case arr =>
    intro _ items ih
    rw [Json.reread, Json.rereadItems_eq, List.map_congr_left ih, List.map_id']
  case obj =>
    intro _ fields ih
    have hsame : ∀ p ∈ fields, (p.1, p.2.reread ft) = p := fun p hp => by rw [ih p hp]
    rw [Json.reread, Json.rereadFields_eq, List.map_congr_left hsame, List.map_id']

theorem Json.Carried.imp {float float' : ℚ → Prop} (hfloat : ∀ x, float x → float' x) {depth : ℕ}
    {v : Json} (h : v.Carried float depth) : v.Carried float' depth := by
  refine Json.Carried.induction (motive := fun depth v => v.Carried float' depth)
    ?scalar ?arr ?obj h
  case scalar =>
    intro depth v hscalar h
    cases v with
    | arr | obj => cases hscalar
    | int n => cases depth <;> exact h
    | float x => cases depth <;> exact hfloat x h
    | null | bool | str => cases depth <;> trivial
  case arr => exact fun _ _ ih => ih
  case obj => exact fun _ _ ih => ih

/-- Tokens that are read back when they are written one behind the other. -/
def Spaced (toks : List Token) : Prop := (∀ t ∈ toks, t.Writable) ∧ toks.IsChain Token.Apart

namespace Spaced

variable {l r : List Token} {c : Char}

theorem singleton {t : Token} (ht : t.Writable) : Spaced [t] := by
  constructor
  · intro u hu
    rw [List.mem_singleton.mp hu]
    exact ht
  · exact List.isChain_singleton t

/-- Behind a token that is no word anything may follow. -/
theorem cons {t : Token} (ht : t.Writable) (hword : t.isWord = false) (hr : Spaced r) :
    Spaced (t :: r) := by
  constructor
  · intro u hu
    rcases List.mem_cons.mp hu with rfl | hu
    · exact ht
    · exact hr.1 u hu
  · refine List.isChain_cons.mpr ⟨?_, hr.2⟩
    intro u _ htrue
    rw [hword] at htrue
    cases htrue

/-- In front of a mark anything may stand. -/
theorem append_punct (hl : Spaced l) (hc : isPunct c = true) (hr : Spaced r) :
    Spaced (l ++ .punct c :: r) := by
  have hright : Spaced (.punct c :: r) := hr.cons hc rfl
  constructor
  · intro u hu
    rcases List.mem_append.mp hu with hu | hu
    · exact hl.1 u hu
    · exact hright.1 u hu
  · apply hl.2.append hright.2
    intro t _ u hu _
    obtain rfl : .punct c = u := by simpa using hu
    rfl

end Spaced

section RoundTrip

variable {ft : FloatText}

theorem itemTokens_cons (v w : Json) (rest : List Json) :
    itemTokens ft (v :: w :: rest) = tokens ft v ++ .punct ',' :: itemTokens ft (w :: rest) := rfl

theorem fieldTokens_cons (k : String) (v : Json) (p : String × Json)
    (rest : List (String × Json)) :
    fieldTokens ft ((k, v) :: p :: rest) =
      .text k.toList :: .punct ':' :: (tokens ft v ++ .punct ',' :: fieldTokens ft (p :: rest)) :=
  rfl

theorem spaced_itemTokens {items : List Json} (h : ∀ v ∈ items, Spaced (tokens ft v)) :
    Spaced (itemTokens ft items) := by
  induction items with
  | nil => exact Spaced.singleton rfl
  | cons v rest ih =>
      have hv := h v List.mem_cons_self
      cases rest with
      | nil => exact hv.append_punct rfl ⟨by simp, List.isChain_nil⟩
      | cons w rest =>
          rw [itemTokens_cons]
          exact hv.append_punct rfl (ih fun u hu => h u (List.mem_cons_of_mem v hu))

theorem spaced_fieldTokens {fields : List (String × Json)}
    (h : ∀ p ∈ fields, Spaced (tokens ft p.2)) : Spaced (fieldTokens ft fields) := by
  induction fields with
  | nil => exact Spaced.singleton rfl
  | cons p rest ih =>
      obtain ⟨k, v⟩ := p
      have hv : Spaced (tokens ft v) := h (k, v) List.mem_cons_self
      cases rest with
      | nil =>
          have hlast : Spaced (tokens ft v ++ [.punct '}']) :=
            hv.append_punct rfl ⟨by simp, List.isChain_nil⟩
          exact (hlast.cons (t := .punct ':') rfl rfl).cons trivial rfl
      | cons q rest =>
          rw [fieldTokens_cons]
          have hrest := hv.append_punct (c := ',') rfl
            (ih fun u hu => h u (List.mem_cons_of_mem (k, v) hu))
          exact (hrest.cons (t := .punct ':') rfl rfl).cons trivial rfl

theorem spaced_scalar {v : Json} (hscalar : v.isScalar = true) (h : v.Carried ft.Legible 0) :
    Spaced (tokens ft v) := by
  have hword : ∀ w ∈ ["null".toList, "true".toList, "false".toList],
      w ≠ [] ∧ w.all isBare = true := by decide
  have hspaced : ∀ w ∈ ["null".toList, "true".toList, "false".toList], Spaced [.word w] :=
    fun w hw => Spaced.singleton ⟨(hword w hw).1, List.all_eq_true.mp (hword w hw).2⟩
  cases v with
  | null => exact hspaced _ (by decide)
  | bool b => cases b <;> exact hspaced _ (by decide)
  | int n => exact Spaced.singleton ⟨printInt_ne_nil n, fun c => isBare_of_mem_printInt⟩
  | float x => exact Spaced.singleton ⟨h.1, h.2.1⟩
  | str s => exact Spaced.singleton trivial
  | arr | obj => cases hscalar

/-- The tokens of a value can be written. -/
theorem spaced_tokens {depth : ℕ} {v : Json} (h : v.Carried ft.Legible depth) :
    Spaced (tokens ft v) := by
  refine Json.Carried.induction (motive := fun _ v => Spaced (tokens ft v)) ?scalar ?arr ?obj h
  case scalar => exact fun _ v hscalar h => spaced_scalar hscalar h
  case arr => exact fun _ items ih => (spaced_itemTokens ih).cons rfl rfl
  case obj => exact fun _ fields ih => (spaced_fieldTokens ih).cons rfl rfl

open Reading

/-- No value begins with the end of an array. -/
theorem tokens_eq_cons (ft : FloatText) (v : Json) :
    ∃ t rest, tokens ft v = t :: rest ∧ t ≠ .punct ']' := by
  cases v with
  | bool b => cases b <;> exact ⟨_, _, rfl, Token.noConfusion⟩
  | arr items => exact ⟨.punct '[', itemTokens ft items, rfl, by decide⟩
  | obj fields => exact ⟨.punct '{', fieldTokens ft fields, rfl, by decide⟩
  | null | int | float | str => exact ⟨_, _, rfl, Token.noConfusion⟩

/-- The items of an array, the first of them wanted, when each of them is read. -/
theorem foldlM_itemTokens {items : List Json} {v : Json} {acc : List Json} {stack : List Frame}
    (h : ∀ w ∈ v :: items, ∀ acc, (tokens ft w).foldlM (step ft) (.value (.arr acc :: stack)) =
      some (deliver (w.reread ft) (.arr acc :: stack))) :
    (itemTokens ft (v :: items)).foldlM (step ft) (.value (.arr acc :: stack)) =
      some (deliver (.arr (acc ++ (v :: items).map (Json.reread ft))) stack) := by
  induction items generalizing v acc with
  | nil =>
      simp [itemTokens, h v List.mem_cons_self, deliver, step]
  | cons w rest ih =>
      have hrest : (itemTokens ft (w :: rest)).foldlM (step ft)
          (.value (.arr (acc ++ [v.reread ft]) :: stack)) =
            some (deliver (.arr ((acc ++ [v.reread ft]) ++ (w :: rest).map (Json.reread ft)))
              stack) :=
        ih fun u hu => h u (List.mem_cons_of_mem v hu)
      rw [itemTokens_cons, List.foldlM_append, h v List.mem_cons_self]
      simp [deliver, step, hrest]

/-- The members of an object, the key of the first of them wanted. -/
theorem foldlM_fieldTokens {fields : List (String × Json)} {p : String × Json}
    {acc : List (String × Json)} {stack : List Frame}
    (h : ∀ q ∈ p :: fields, ∀ acc k,
      (tokens ft q.2).foldlM (step ft) (.value (.obj acc k :: stack)) =
        some (deliver (q.2.reread ft) (.obj acc k :: stack))) :
    (fieldTokens ft (p :: fields)).foldlM (step ft) (.member acc stack) =
      some (deliver (.obj (acc ++ (p :: fields).map fun q => (q.1, q.2.reread ft))) stack) := by
  induction fields generalizing p acc with
  | nil =>
      simp [fieldTokens, h p List.mem_cons_self, deliver, step]
  | cons q rest ih =>
      obtain ⟨k, v⟩ := p
      have hrest : (fieldTokens ft (q :: rest)).foldlM (step ft)
          (.member (acc ++ [(k, v.reread ft)]) stack) =
            some (deliver (.obj ((acc ++ [(k, v.reread ft)]) ++
              (q :: rest).map fun q => (q.1, q.2.reread ft))) stack) :=
        ih fun u hu => h u (List.mem_cons_of_mem (k, v) hu)
      have hv : (tokens ft v).foldlM (step ft) (.value (.obj acc k :: stack)) =
          some (.inObj (acc ++ [(k, v.reread ft)]) stack) := h (k, v) List.mem_cons_self acc k
      rw [List.append_assoc] at hrest
      rw [List.map_cons, ← List.singleton_append (l := List.map _ _), ← hrest]
      simp [fieldTokens_cons, step, hv]

theorem foldlM_scalar {v : Json} (hscalar : v.isScalar = true) (h : v.Carried ft.Legible 0)
    (stack : List Frame) :
    (tokens ft v).foldlM (step ft) (.value stack) = some (deliver (v.reread ft) stack) := by
  cases v with
  | null => rfl
  | bool b => cases b <;> rfl
  | int n => simp [tokens, step, valueStep, readWord_printInt ft h, Json.reread]
  | float x => simp [tokens, step, valueStep, FloatText.Legible.readWord_eq h, Json.reread]
  | str s => simp [tokens, step, valueStep, Json.reread]
  | arr | obj => cases hscalar

/-- Where an array is opened its first item is taken as where a value is wanted. -/
theorem foldlM_opened {v : Json} {rest : List Json} {stack : List Frame} :
    (itemTokens ft (v :: rest)).foldlM (step ft) (.opened stack) =
      (itemTokens ft (v :: rest)).foldlM (step ft) (.value (.arr [] :: stack)) := by
  obtain ⟨t, toks, htoks, hne⟩ : ∃ t toks, itemTokens ft (v :: rest) = t :: toks ∧
      t ≠ .punct ']' := by
    obtain ⟨t, toks, htoks, hne⟩ := tokens_eq_cons ft v
    cases rest with
    | nil => exact ⟨t, _, by rw [itemTokens, htoks]; rfl, hne⟩
    | cons w rest => exact ⟨t, _, by rw [itemTokens_cons, htoks]; rfl, hne⟩
  rw [htoks, List.foldlM_cons, List.foldlM_cons]
  simp [step, hne]

/-- A value is read where one is wanted, as long as the stack leaves room for its containers. -/
theorem foldlM_tokens {depth : ℕ} {v : Json} (h : v.Carried ft.Legible depth)
    {stack : List Frame} (hroom : stack.length + depth < recursionLimit) :
    (tokens ft v).foldlM (step ft) (.value stack) = some (deliver (v.reread ft) stack) := by
  revert stack
  refine Json.Carried.induction (motive := fun depth v => ∀ {stack : List Frame},
    stack.length + depth < recursionLimit →
      (tokens ft v).foldlM (step ft) (.value stack) = some (deliver (v.reread ft) stack))
    ?scalar ?arr ?obj h
  case scalar => exact fun _ v hscalar h stack _ => foldlM_scalar hscalar h stack
  case arr =>
      intro depth items ih stack hroom
      have hopen : stack.length + 1 < recursionLimit := by omega
      have hbracket : step ft (.value stack) (.punct '[') = some (.opened stack) := by
        simp [step, valueStep, hopen]
      rw [tokens, List.foldlM_cons, hbracket, Option.bind_eq_bind, Option.bind_some]
      cases items with
      | nil => rfl
      | cons v rest =>
          rw [foldlM_opened, Json.reread, Json.rereadItems_eq]
          refine foldlM_itemTokens ?_
          intro w hw acc
          exact ih w hw (by rw [List.length_cons]; omega)
  case obj =>
      intro depth fields ih stack hroom
      have hopen : stack.length + 1 < recursionLimit := by omega
      have hbrace : step ft (.value stack) (.punct '{') = some (.member [] stack) := by
        simp [step, valueStep, hopen]
      rw [tokens, List.foldlM_cons, hbrace, Option.bind_eq_bind, Option.bind_some]
      cases fields with
      | nil => rfl
      | cons p rest =>
          rw [Json.reread, Json.rereadFields_eq]
          refine foldlM_fieldTokens ?_
          intro q hq acc k
          exact ih q hq (by rw [List.length_cons]; omega)

/-- A written value is read but for what the text keeps of its floats, whatever white space
stands around the text. -/
theorem parse_render_reread {depth : ℕ} {v : Json} (h : v.Carried ft.Legible depth)
    (hdepth : depth < recursionLimit) {pad pad' : List Char} (hpad : ∀ c ∈ pad, isBlank c = true)
    (hpad' : ∀ c ∈ pad', isBlank c = true) :
    parse ft (pad ++ render ft v ++ pad') = some (v.reread ft) := by
  have hspaced := spaced_tokens h
  have hread : (tokens ft v).foldlM (step ft) (.value []) = some (.done (v.reread ft)) :=
    foldlM_tokens h (by simpa using hdepth)
  rw [parse, render, scan_print hspaced.1 hspaced.2 hpad hpad', Option.bind_some, hread]
  rfl

theorem Json.Carried.legible {depth : ℕ} {v : Json} (h : v.Fits ft depth) :
    v.Carried ft.Legible depth := h.imp fun _ => And.left

/-- Reading undoes writing of a value that fits. -/
theorem parse_render {depth : ℕ} {v : Json} (h : v.Fits ft depth) (hdepth : depth < recursionLimit)
    {pad pad' : List Char} (hpad : ∀ c ∈ pad, isBlank c = true)
    (hpad' : ∀ c ∈ pad', isBlank c = true) :
    parse ft (pad ++ render ft v ++ pad') = some v := by
  rw [parse_render_reread h.legible hdepth hpad hpad', h.reread_eq]

/-- A written object stands between its braces. -/
theorem render_obj (ft : FloatText) (fields : List (String × Json)) :
    ∃ body, render ft (.obj fields) = '{' :: (body ++ ['}']) := by
  have hlast : ∃ init, fieldTokens ft fields = init ++ [.punct '}'] := by
    induction fields with
    | nil => exact ⟨[], rfl⟩
    | cons p rest ih =>
        obtain ⟨k, v⟩ := p
        cases rest with
        | nil => exact ⟨.text k.toList :: .punct ':' :: tokens ft v, rfl⟩
        | cons q rest =>
            obtain ⟨init, hinit⟩ := ih
            refine ⟨.text k.toList :: .punct ':' :: (tokens ft v ++ .punct ',' :: init), ?_⟩
            rw [fieldTokens_cons, hinit]
            simp
  obtain ⟨init, hinit⟩ := hlast
  refine ⟨init.flatMap Token.print, ?_⟩
  rw [render, tokens, hinit]
  simp [Token.print]

/-- A written value is one line. -/
theorem newline_notMem_render {depth : ℕ} {v : Json} (h : v.Carried ft.Legible depth) :
    '\n' ∉ render ft v := by
  intro hmem
  obtain ⟨t, ht, hc⟩ := List.mem_flatMap.mp hmem
  exact newline_notMem_print ((spaced_tokens h).1 t ht) hc

end RoundTrip

end ElectronixMes.Serde
