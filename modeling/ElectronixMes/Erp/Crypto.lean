import ElectronixMes.Text.Base64

/-!
# Encrypted tokens (crates/mes-erp/src/crypto.rs)

A token is stored as the base64 of a fresh nonce and what the cipher makes of the token under
it. The hash and the cipher belong to libraries.
-/

namespace ElectronixMes.Erp

inductive ErpError where
  | mapping (detail : String)
  | crypto
  | http (detail : String)
  deriving DecidableEq

/-- The text of an error. -/
def ErpError.text : ErpError → String
  | mapping detail => "field mapping error: " ++ detail
  | crypto => "token encryption error"
  | http detail => "erp request failed: " ++ detail

namespace Crypto

def nonceLen : ℕ := 24

abbrev Nonce := {bytes : List UInt8 // bytes.length = nonceLen}

theorem length_take_nonceLen {buf : List UInt8} (h : ¬ buf.length ≤ nonceLen) :
    (buf.take nonceLen).length = nonceLen := by
  rw [List.length_take]
  omega

/-- The bytes of a text. -/
def bytes (s : String) : List UInt8 := s.toUTF8.data.toList

/-- The text that some bytes encode. -/
def ofBytes (b : List UInt8) : Option String := String.fromUTF8? ⟨b.toArray⟩

theorem ofBytes_eq_some_iff {b : List UInt8} {s : String} : ofBytes b = some s ↔ bytes s = b := by
  unfold ofBytes String.fromUTF8?
  constructor
  · intro h
    split at h
    · cases h
      rfl
    · cases h
  · rintro rfl
    change (if h : s.toByteArray.IsValidUTF8 then some (String.fromUTF8 s.toByteArray h)
      else none) = some s
    rw [dif_pos s.isValidUTF8]
    rfl

/-- The hash, and the cipher by its key, the nonce and what it is given. -/
structure Primitives where
  sha256 : List UInt8 → List UInt8
  encrypt : List UInt8 → Nonce → List UInt8 → Option (List UInt8)
  decrypt : List UInt8 → Nonce → List UInt8 → Option (List UInt8)

/-- A cipher that checks what it decrypts: this is what the text is encrypted as, and it ends in
a tag. -/
structure Primitives.Lawful (p : Primitives) : Prop where
  decrypt_iff : ∀ key nonce ct pt,
    p.decrypt key nonce ct = some pt ↔ p.encrypt key nonce pt = some ct
  encrypt_ne_nil : ∀ key nonce pt, p.encrypt key nonce pt ≠ some []

variable (p : Primitives)

/-- The encryption key of a server secret. -/
def deriveKey (secret : List UInt8) : List UInt8 :=
  p.sha256 (bytes "mes-erp-token-encryption-v1" ++ secret)

/-- Encrypt a token under the nonce that was drawn, if one was. -/
def encrypt (key : List UInt8) (nonce : Option Nonce) (plaintext : String) :
    Except ErpError String :=
  match nonce with
  | none => .error .crypto
  | some nonce =>
      match p.encrypt key nonce (bytes plaintext) with
      | none => .error .crypto
      | some ct => .ok (String.ofList (Text.Base64.encode (nonce.val ++ ct)))

/-- Decrypt a stored token. -/
def decrypt (key : List UInt8) (token : String) : Except ErpError String :=
  match Text.Base64.decode token.toList with
  | none => .error .crypto
  | some buf =>
      if h : buf.length ≤ nonceLen then .error .crypto
      else
        match p.decrypt key ⟨buf.take nonceLen, length_take_nonceLen h⟩ (buf.drop nonceLen) with
        | none => .error .crypto
        | some pt =>
            match ofBytes pt with
            | none => .error .crypto
            | some plaintext => .ok plaintext

variable {p} {key : List UInt8} {token plaintext : String}

theorem encrypt_eq_ok {nonce : Nonce} :
    encrypt p key (some nonce) plaintext = .ok token ↔
      ∃ ct, p.encrypt key nonce (bytes plaintext) = some ct ∧
        Text.Base64.decode token.toList = some (nonce.val ++ ct) := by
  simp only [encrypt, Text.Base64.decode_eq_some_iff]
  constructor
  · intro h
    split at h
    · cases h
    · rename_i ct hct
      cases h
      exact ⟨ct, hct, String.toList_ofList.symm⟩
  · rintro ⟨ct, hct, htoken⟩
    rw [hct]
    dsimp only
    rw [htoken, String.ofList_toList]

/-- What is decrypted starts with a nonce, and the cipher gives the text for the rest. -/
theorem decrypt_eq_ok :
    decrypt p key token = .ok plaintext ↔
      ∃ (nonce : Nonce) (ct : List UInt8), ct ≠ [] ∧
        Text.Base64.decode token.toList = some (nonce.val ++ ct) ∧
        p.decrypt key nonce ct = some (bytes plaintext) := by
  unfold decrypt
  constructor
  · intro h
    split at h
    · cases h
    · rename_i buf hbuf
      split at h
      · cases h
      · rename_i hlen
        split at h
        · cases h
        · rename_i pt hpt
          split at h
          · cases h
          · rename_i hplain
            cases h
            refine ⟨⟨buf.take nonceLen, length_take_nonceLen hlen⟩, buf.drop nonceLen, ?_, ?_, ?_⟩
            · rw [Ne, List.drop_eq_nil_iff]
              exact hlen
            · rw [hbuf, List.take_append_drop]
            · rw [hpt, ofBytes_eq_some_iff.mp hplain]
  · rintro ⟨⟨nonce, hnonce⟩, ct, hne, hbuf, hpt⟩
    have hpos : 0 < ct.length := List.length_pos_iff.mpr hne
    have htake : (nonce ++ ct).take nonceLen = nonce := List.take_left' hnonce
    have hdrop : (nonce ++ ct).drop nonceLen = ct := List.drop_left' hnonce
    rw [hbuf]
    dsimp only
    rw [dif_neg (by rw [List.length_append]; omega)]
    simp only [htake, hdrop, hpt, ofBytes_eq_some_iff.mpr rfl]

/-- What was encrypted is recovered. -/
theorem decrypt_of_encrypt (hp : p.Lawful) {nonce : Option Nonce}
    (h : encrypt p key nonce plaintext = .ok token) : decrypt p key token = .ok plaintext := by
  cases nonce with
  | none => cases h
  | some nonce =>
      obtain ⟨ct, hct, hbuf⟩ := encrypt_eq_ok.mp h
      refine decrypt_eq_ok.mpr ⟨nonce, ct, ?_, hbuf, (hp.decrypt_iff _ _ _ _).mpr hct⟩
      rintro rfl
      exact hp.encrypt_ne_nil _ _ _ hct

/-- A stored token decrypts to a text exactly when it is what the text is encrypted as under some
nonce: what was encrypted is recovered, and nothing else is accepted. -/
theorem decrypt_eq_ok_iff (hp : p.Lawful) :
    decrypt p key token = .ok plaintext ↔
      ∃ nonce, encrypt p key (some nonce) plaintext = .ok token := by
  constructor
  · intro h
    obtain ⟨nonce, ct, -, hbuf, hpt⟩ := decrypt_eq_ok.mp h
    exact ⟨nonce, encrypt_eq_ok.mpr ⟨ct, (hp.decrypt_iff _ _ _ _).mp hpt, hbuf⟩⟩
  · rintro ⟨nonce, hencrypt⟩
    exact decrypt_of_encrypt hp hencrypt

section Sample

/-- A nonce with the bytes in order. -/
def countingNonce : Nonce := ⟨(List.range 24).map UInt8.ofNat, by decide⟩

/-- The key of the secret `server-secret`. -/
def serverKey : List UInt8 :=
  [140, 52, 249, 216, 209, 51, 32, 248, 218, 195, 74, 74, 217, 21, 255, 67, 147, 124, 72, 96, 59,
    150, 221, 201, 132, 41, 29, 248, 90, 218, 134, 118]

/-- What the text `tok` is encrypted as under this key and this nonce. -/
def tokCiphertext : List UInt8 :=
  [81, 139, 98, 88, 61, 203, 195, 25, 173, 44, 173, 154, 104, 28, 11, 211, 186, 146, 52]

/-- The cipher at this key, nonce and text; elsewhere a text is itself with an empty tag. -/
def sampleEncrypt (key : List UInt8) (nonce : Nonce) (pt : List UInt8) : List UInt8 :=
  if key = serverKey ∧ nonce = countingNonce ∧ pt = bytes "tok" then tokCiphertext
  else pt ++ List.replicate 16 0

def sample : Primitives where
  sha256 b := if b = bytes "mes-erp-token-encryption-v1server-secret" then serverKey else []
  encrypt key nonce pt := some (sampleEncrypt key nonce pt)
  decrypt key nonce ct :=
    [bytes "tok", ct.take (ct.length - 16)].find? fun pt => sampleEncrypt key nonce pt = ct

theorem tagged_ne_tokCiphertext (pt : List UInt8) :
    pt ++ List.replicate 16 0 ≠ tokCiphertext := by
  intro h
  have hlast := congrArg List.getLast? h
  rw [List.getLast?_append,
    show (List.replicate 16 (0 : UInt8)).getLast? = some 0 from rfl] at hlast
  exact absurd (Option.some.inj hlast) (by decide)

theorem sampleEncrypt_injective (key : List UInt8) (nonce : Nonce) :
    Function.Injective (sampleEncrypt key nonce) := by
  intro a b h
  unfold sampleEncrypt at h
  split at h
  · rename_i ha
    split at h
    · rename_i hb
      rw [ha.2.2, hb.2.2]
    · exact absurd h.symm (tagged_ne_tokCiphertext b)
  · split at h
    · exact absurd h (tagged_ne_tokCiphertext a)
    · exact List.append_cancel_right h

theorem sample_lawful : sample.Lawful where
  decrypt_iff key nonce ct pt := by
    simp only [sample, Option.some.injEq]
    constructor
    · intro h
      simpa using List.find?_some h
    · intro h
      have hinj := sampleEncrypt_injective key nonce
      by_cases htok : sampleEncrypt key nonce (bytes "tok") = ct
      · rw [List.find?_cons_of_pos (by simpa using htok), hinj (htok.trans h.symm)]
      · have htake : ct.take (ct.length - 16) = pt := by
          subst h
          unfold sampleEncrypt at htok ⊢
          split
          · rename_i hsame
            exact absurd (by rw [hsame.2.2]) htok
          · simp
        rw [List.find?_cons_of_neg (by simpa using htok), htake,
          List.find?_cons_of_pos (by simpa using h)]
  encrypt_ne_nil key nonce pt := by
    simp only [sample, Ne, Option.some.injEq]
    unfold sampleEncrypt
    split <;> simp [tokCiphertext]

/-- The token `tok` as the server with this secret stores it. -/
theorem tok_decrypts :
    decrypt sample (deriveKey sample (bytes "server-secret"))
      "AAECAwQFBgcICQoLDA0ODxAREhMUFRYXUYtiWD3LwxmtLK2aaBwL07qSNA==" = .ok "tok" :=
  (decrypt_eq_ok_iff sample_lawful).mpr ⟨countingNonce, by decide⟩

end Sample

end Crypto

end ElectronixMes.Erp
