import Mathlib.Data.Char

/-!
# Base64

Three bytes are written as four digits of six bits. A text that ends inside such a group is
padded, and the bits that the padding stands for are zero. Reading is strict about both, so a
text is read exactly when it is what some bytes are written as.
-/

namespace ElectronixMes.Text.Base64

/-- The digit of six bits. -/
def digit (n : ℕ) : Char :=
  if n < 26 then Char.ofNat (65 + n)
  else if n < 52 then Char.ofNat (97 + (n - 26))
  else if n < 62 then Char.ofNat (48 + (n - 52))
  else if n = 62 then '+'
  else '/'

/-- The six bits of a digit. -/
def value (c : Char) : Option ℕ :=
  if 65 ≤ c.toNat ∧ c.toNat ≤ 90 then some (c.toNat - 65)
  else if 97 ≤ c.toNat ∧ c.toNat ≤ 122 then some (c.toNat - 97 + 26)
  else if 48 ≤ c.toNat ∧ c.toNat ≤ 57 then some (c.toNat - 48 + 52)
  else if c = '+' then some 62
  else if c = '/' then some 63
  else none

theorem value_digit {n : ℕ} (h : n < 64) : value (digit n) = some n := by
  have hall : ∀ n : Fin 64, value (digit n) = some n.val := by decide
  exact hall ⟨n, h⟩

theorem value_pad : value '=' = none := by decide

/-- A digit is told by its value. -/
theorem digit_of_value {c : Char} {n : ℕ} (h : value c = some n) : n < 64 ∧ digit n = c := by
  unfold value at h
  split_ifs at h with hupper hlower hnumeral hplus hslash
  · obtain rfl := Option.some.inj h
    refine ⟨by omega, ?_⟩
    rw [digit, if_pos (by omega), Nat.add_sub_cancel' hupper.1, Char.ofNat_toNat]
  · obtain rfl := Option.some.inj h
    refine ⟨by omega, ?_⟩
    rw [digit, if_neg (by omega), if_pos (by omega), Nat.add_sub_cancel,
      Nat.add_sub_cancel' hlower.1, Char.ofNat_toNat]
  · obtain rfl := Option.some.inj h
    refine ⟨by omega, ?_⟩
    rw [digit, if_neg (by omega), if_neg (by omega), if_pos (by omega), Nat.add_sub_cancel,
      Nat.add_sub_cancel' hnumeral.1, Char.ofNat_toNat]
  · obtain rfl := Option.some.inj h
    exact ⟨by decide, hplus.symm⟩
  · obtain rfl := Option.some.inj h
    exact ⟨by decide, hslash.symm⟩

/-- The text of some bytes. -/
def encode : List UInt8 → List Char
  | [] => []
  | [a] => [digit (a.toNat / 4), digit (a.toNat % 4 * 16), '=', '=']
  | [a, b] =>
      [digit (a.toNat / 4), digit (a.toNat % 4 * 16 + b.toNat / 16), digit (b.toNat % 16 * 4), '=']
  | a :: b :: c :: rest =>
      digit (a.toNat / 4) :: digit (a.toNat % 4 * 16 + b.toNat / 16) ::
        digit (b.toNat % 16 * 4 + c.toNat / 64) :: digit (c.toNat % 64) :: encode rest

/-- The bytes of a group of four characters; only the last group may be padded. -/
def group (last : Bool) (w x y z : Char) : Option (List UInt8) :=
  match value w, value x, value y, value z with
  | some w, some x, some y, some z =>
      some [UInt8.ofNat (w * 4 + x / 16), UInt8.ofNat (x % 16 * 16 + y / 4),
        UInt8.ofNat (y % 4 * 64 + z)]
  | some w, some x, some y, none =>
      if last ∧ z = '=' ∧ y % 4 = 0 then
        some [UInt8.ofNat (w * 4 + x / 16), UInt8.ofNat (x % 16 * 16 + y / 4)]
      else none
  | some w, some x, none, none =>
      if last ∧ y = '=' ∧ z = '=' ∧ x % 16 = 0 then some [UInt8.ofNat (w * 4 + x / 16)] else none
  | _, _, _, _ => none

/-- The bytes of a text. -/
def decode : List Char → Option (List UInt8)
  | [] => some []
  | w :: x :: y :: z :: rest =>
      (group rest.isEmpty w x y z).bind fun bytes => (decode rest).map (bytes ++ ·)
  | _ => none

section Groups

variable {last : Bool} {w x y z : Char}

theorem toNat_byte {n : ℕ} (h : n < 256) : (UInt8.ofNat n).toNat = n :=
  UInt8.toNat_ofNat_of_lt' h

theorem group_full (last : Bool) (a b c : UInt8) :
    group last (digit (a.toNat / 4)) (digit (a.toNat % 4 * 16 + b.toNat / 16))
        (digit (b.toNat % 16 * 4 + c.toNat / 64)) (digit (c.toNat % 64)) =
      some [a, b, c] := by
  have ha := a.toNat_lt
  have hb := b.toNat_lt
  have hc := c.toNat_lt
  unfold group
  rw [value_digit (by omega), value_digit (by omega), value_digit (by omega),
    value_digit (by omega)]
  have hfirst : a.toNat / 4 * 4 + (a.toNat % 4 * 16 + b.toNat / 16) / 16 = a.toNat := by omega
  have hsecond : (a.toNat % 4 * 16 + b.toNat / 16) % 16 * 16 +
      (b.toNat % 16 * 4 + c.toNat / 64) / 4 = b.toNat := by omega
  have hthird : (b.toNat % 16 * 4 + c.toNat / 64) % 4 * 64 + c.toNat % 64 = c.toNat := by omega
  simp only [hfirst, hsecond, hthird, UInt8.ofNat_toNat]

theorem group_two (a b : UInt8) :
    group true (digit (a.toNat / 4)) (digit (a.toNat % 4 * 16 + b.toNat / 16))
        (digit (b.toNat % 16 * 4)) '=' =
      some [a, b] := by
  have ha := a.toNat_lt
  have hb := b.toNat_lt
  unfold group
  rw [value_digit (by omega), value_digit (by omega), value_digit (by omega), value_pad]
  have hfirst : a.toNat / 4 * 4 + (a.toNat % 4 * 16 + b.toNat / 16) / 16 = a.toNat := by omega
  have hsecond : (a.toNat % 4 * 16 + b.toNat / 16) % 16 * 16 + b.toNat % 16 * 4 / 4 = b.toNat := by
    omega
  have hzero : b.toNat % 16 * 4 % 4 = 0 := by omega
  simp only [hfirst, hsecond, hzero, and_self, if_true, UInt8.ofNat_toNat]

theorem group_one (a : UInt8) :
    group true (digit (a.toNat / 4)) (digit (a.toNat % 4 * 16)) '=' '=' = some [a] := by
  have ha := a.toNat_lt
  unfold group
  rw [value_digit (by omega), value_digit (by omega), value_pad]
  have hfirst : a.toNat / 4 * 4 + a.toNat % 4 * 16 / 16 = a.toNat := by omega
  have hzero : a.toNat % 4 * 16 % 16 = 0 := by omega
  simp only [hfirst, hzero, and_self, if_true, UInt8.ofNat_toNat]

/-- A group that is read is a group as it is written, and a padded one is the last. -/
theorem group_eq_some {bytes : List UInt8} (h : group last w x y z = some bytes) :
    (∃ a b c, bytes = [a, b, c]) ∧
        (∀ rest, encode (bytes ++ rest) = w :: x :: y :: z :: encode rest) ∨
      last = true ∧ encode bytes = [w, x, y, z] := by
  unfold group at h
  split at h
  · rename_i w' x' y' z' hw hx hy hz
    obtain ⟨hw', rfl⟩ := digit_of_value hw
    obtain ⟨hx', rfl⟩ := digit_of_value hx
    obtain ⟨hy', rfl⟩ := digit_of_value hy
    obtain ⟨hz', rfl⟩ := digit_of_value hz
    obtain rfl := Option.some.inj h
    refine Or.inl ⟨⟨_, _, _, rfl⟩, ?_⟩
    intro rest
    have hfirst : (w' * 4 + x' / 16) / 4 = w' := by omega
    have hsecond : (w' * 4 + x' / 16) % 4 * 16 + (x' % 16 * 16 + y' / 4) / 16 = x' := by omega
    have hthird : (x' % 16 * 16 + y' / 4) % 16 * 4 + (y' % 4 * 64 + z') / 64 = y' := by omega
    have hfourth : (y' % 4 * 64 + z') % 64 = z' := by omega
    simp only [List.cons_append, List.nil_append, encode]
    rw [toNat_byte (by omega), toNat_byte (by omega), toNat_byte (by omega), hfirst, hsecond,
      hthird, hfourth]
  · rename_i w' x' y' hw hx hy hz
    obtain ⟨hw', rfl⟩ := digit_of_value hw
    obtain ⟨hx', rfl⟩ := digit_of_value hx
    obtain ⟨hy', rfl⟩ := digit_of_value hy
    split at h
    · rename_i hpad
      obtain ⟨hlast, rfl, hzero⟩ := hpad
      obtain rfl := Option.some.inj h
      refine Or.inr ⟨hlast, ?_⟩
      have hfirst : (w' * 4 + x' / 16) / 4 = w' := by omega
      have hsecond : (w' * 4 + x' / 16) % 4 * 16 + (x' % 16 * 16 + y' / 4) / 16 = x' := by omega
      have hthird : (x' % 16 * 16 + y' / 4) % 16 * 4 = y' := by omega
      simp only [encode]
      rw [toNat_byte (by omega), toNat_byte (by omega), hfirst, hsecond, hthird]
    · cases h
  · rename_i w' x' hw hx hy hz
    obtain ⟨hw', rfl⟩ := digit_of_value hw
    obtain ⟨hx', rfl⟩ := digit_of_value hx
    split at h
    · rename_i hpad
      obtain ⟨hlast, rfl, rfl, hzero⟩ := hpad
      obtain rfl := Option.some.inj h
      refine Or.inr ⟨hlast, ?_⟩
      have hfirst : (w' * 4 + x' / 16) / 4 = w' := by omega
      have hsecond : (w' * 4 + x' / 16) % 4 * 16 = x' := by omega
      simp only [encode]
      rw [toNat_byte (by omega), hfirst, hsecond]
    · cases h
  · cases h

end Groups

/-- What is written is read back. -/
theorem decode_encode (bytes : List UInt8) : decode (encode bytes) = some bytes := by
  induction bytes using encode.induct with
  | case1 => rfl
  | case2 a => simp [encode, decode, group_one]
  | case3 a b => simp [encode, decode, group_two]
  | case4 a b c rest ih => simp [encode, decode, group_full, ih]

/-- Only what is written is read. -/
theorem encode_of_decode {s : List Char} {bytes : List UInt8} (h : decode s = some bytes) :
    encode bytes = s := by
  induction s using decode.induct generalizing bytes with
  | case1 =>
      cases h
      rfl
  | case2 w x y z rest ih =>
      rw [decode, Option.bind_eq_some_iff] at h
      obtain ⟨front, hgroup, hrest⟩ := h
      rw [Option.map_eq_some_iff] at hrest
      obtain ⟨back, hback, rfl⟩ := hrest
      rcases group_eq_some hgroup with ⟨-, hfront⟩ | ⟨hlast, hfront⟩
      · rw [hfront, ih hback]
      · obtain rfl := List.isEmpty_iff.mp hlast
        cases hback
        rw [List.append_nil, hfront]
  | case3 s hnil hgroup =>
      rw [decode] at h
      · cases h
      · exact hnil
      · exact hgroup

/-- A text is read as some bytes exactly when these are written as it. -/
theorem decode_eq_some_iff {s : List Char} {bytes : List UInt8} :
    decode s = some bytes ↔ encode bytes = s := by
  constructor
  · exact encode_of_decode
  · rintro rfl
    exact decode_encode bytes

end ElectronixMes.Text.Base64
