import FireDash.Lib.Base64

/-! Application secrets: the text of a stored envelope, and the cipher over the deployment key ring. -/
namespace FireDash.ApplicationSecrets

open Json (Text text)

abbrev Bytes := List UInt8

inductive SecretError where
  | malformedEnvelope
  | invalidKeyConfiguration
  | unknownKeyVersion
  | decryptionFailed
  deriving DecidableEq

def SecretError.code : SecretError → String
  | .malformedEnvelope => "malformed_envelope"
  | .invalidKeyConfiguration => "invalid_key_configuration"
  | .unknownKeyVersion => "unknown_key_version"
  | .decryptionFailed => "decryption_failed"

/-! ### Versions -/

def isAlnum (c : ℕ) : Bool := 65 ≤ c ∧ c ≤ 90 ∨ 97 ≤ c ∧ c ≤ 122 ∨ 48 ≤ c ∧ c ≤ 57

/-- `[A-Za-z0-9][A-Za-z0-9._-]{0,63}`. -/
def isVersion : Text → Bool
  | [] => false
  | c :: rest => isAlnum c && rest.length ≤ 63 && rest.all fun c => isAlnum c || c = 46 || c = 95 || c = 45

def colon : ℕ := 58

theorem colon_not_mem_of_isVersion {t : Text} (h : isVersion t = true) : colon ∉ t := by
  cases t with
  | nil => exact List.not_mem_nil
  | cons c rest =>
    simp only [isVersion, Bool.and_eq_true] at h
    obtain ⟨⟨hc, -⟩, hrest⟩ := h
    intro hmem
    rcases List.mem_cons.mp hmem with heq | hmem
    · rw [← heq] at hc
      exact absurd hc (by decide)
    · exact absurd (List.all_eq_true.mp hrest colon hmem) (by decide)

/-! ### Envelopes -/

/-- A well-formed envelope. -/
structure Envelope where
  version : Text
  nonce : Bytes
  ciphertext : Bytes
  version_valid : isVersion version = true
  nonce_length : nonce.length = 12
  tag_length : 16 ≤ ciphertext.length
  deriving DecidableEq

/-- The text of the parts of an envelope. -/
def serialize (version : Text) (nonce ciphertext : Bytes) : Text :=
  [colon].intercalate [text "app-secret", text "v1", version, Base64.encode nonce, Base64.encode ciphertext]

/-- `_b64decode` -/
def b64decode (value : Text) : Except SecretError Bytes :=
  if value = [] ∨ value.all Base64.isUrlSafe = false then .error .malformedEnvelope
  else
    match Base64.b64decode value with
    | some bytes => .ok bytes
    | none => .error .malformedEnvelope

def parseEnvelope (serialized : Text) : Except SecretError Envelope :=
  match serialized.splitOn colon with
  | [format, formatVersion, version, nonceText, ciphertextText] =>
    if format ≠ text "app-secret" ∨ formatVersion ≠ text "v1" then .error .malformedEnvelope
    else if hversion : isVersion version = true then do
      let nonce ← b64decode nonceText
      let ciphertext ← b64decode ciphertextText
      if hlength : nonce.length = 12 ∧ 16 ≤ ciphertext.length then
        return ⟨version, nonce, ciphertext, hversion, hlength.1, hlength.2⟩
      else throw .malformedEnvelope
    else .error .malformedEnvelope
  | _ => .error .malformedEnvelope

/-- `application_secret_key_version` -/
def applicationSecretKeyVersion (encrypted : Text) : Except SecretError Text := do
  let envelope ← parseEnvelope encrypted
  return envelope.version

theorem b64decode_encode {bytes : Bytes} (h : bytes ≠ []) : b64decode (Base64.encode bytes) = .ok bytes := by
  unfold b64decode
  rw [if_neg, Base64.b64decode_encode]
  rintro (hnil | hunsafe)
  · exact Base64.encode_ne_nil h hnil
  · rw [Base64.all_isUrlSafe_encode] at hunsafe
    cases hunsafe

theorem colon_not_mem_encode (bytes : Bytes) : colon ∉ Base64.encode bytes := Base64.not_mem_encode (by decide)

theorem splitOn_serialize {version : Text} (nonce ciphertext : Bytes) (h : colon ∉ version) :
    (serialize version nonce ciphertext).splitOn colon =
      [text "app-secret", text "v1", version, Base64.encode nonce, Base64.encode ciphertext] := by
  apply List.splitOn_intercalate colon _ (List.cons_ne_nil _ _)
  intro t ht
  simp only [List.mem_cons, List.not_mem_nil, or_false] at ht
  rcases ht with rfl | rfl | rfl | rfl | rfl
  · decide
  · decide
  · exact h
  · exact colon_not_mem_encode nonce
  · exact colon_not_mem_encode ciphertext

/-- The parts of a serialized envelope are recovered exactly. -/
theorem parseEnvelope_serialize (e : Envelope) : parseEnvelope (serialize e.version e.nonce e.ciphertext) = .ok e := by
  have hnonce : e.nonce ≠ [] := by
    intro hnil
    have hlength := e.nonce_length
    rw [hnil] at hlength
    cases hlength
  have hciphertext : e.ciphertext ≠ [] := by
    intro hnil
    have hlength := e.tag_length
    rw [hnil] at hlength
    cases hlength
  unfold parseEnvelope
  rw [splitOn_serialize _ _ (colon_not_mem_of_isVersion e.version_valid)]
  simp only [ne_eq, not_true_eq_false, or_self, if_false, dif_pos e.version_valid, b64decode_encode hnonce,
    b64decode_encode hciphertext, ok_bind, dif_pos (And.intro e.nonce_length e.tag_length)]
  rfl

/-! ### The cipher -/

/-- AES-256-GCM over a key, a nonce, a text and its associated data. -/
structure AesGcm where
  encrypt : Bytes → Bytes → Bytes → Bytes → Bytes
  decrypt : Bytes → Bytes → Bytes → Bytes → Option Bytes

/-- What the cipher relies on: decryption inverts encryption, and the tag takes 16 bytes. -/
structure AesGcm.Correct (aes : AesGcm) : Prop where
  decrypt_encrypt : ∀ {key nonce plaintext context : Bytes}, key.length = 32 → nonce.length = 12 →
    aes.decrypt key nonce (aes.encrypt key nonce plaintext context) context = some plaintext
  length_encrypt : ∀ key nonce plaintext context, (aes.encrypt key nonce plaintext context).length = plaintext.length + 16

/-- What `os.urandom(12)` draws. -/
abbrev Nonce := { bytes : Bytes // bytes.length = 12 }

/-- A key ring with a valid active version. -/
structure ApplicationSecretCipher where
  keys : List (Text × Bytes)
  activeVersion : Text
  activeKey : Bytes
  lookup_active : keys.lookup activeVersion = some activeKey
  keys_valid : ∀ e ∈ keys, isVersion e.1 = true ∧ e.2.length = 32

theorem mem_of_lookup {keys : List (Text × Bytes)} {version : Text} {key : Bytes} (h : keys.lookup version = some key) :
    (version, key) ∈ keys := by
  induction keys with
  | nil => cases h
  | cons e keys ih =>
    obtain ⟨v, k⟩ := e
    rw [List.lookup_cons] at h
    split at h
    · rename_i hv
      rw [eq_of_beq hv, Option.some.inj h]
      exact List.mem_cons_self
    · exact List.mem_cons_of_mem _ (ih h)

namespace ApplicationSecretCipher

/-- `ApplicationSecretCipher(keys=…, active_version=…)` -/
def new (keys : List (Text × Bytes)) (activeVersion : Text) : Except SecretError ApplicationSecretCipher :=
  match hactive : keys.lookup activeVersion with
  | none => .error .invalidKeyConfiguration
  | some key =>
    if hvalid : ∀ e ∈ keys, isVersion e.1 = true ∧ e.2.length = 32 then .ok ⟨keys, activeVersion, key, hactive, hvalid⟩
    else .error .invalidKeyConfiguration

variable (aes : AesGcm) (cipher : ApplicationSecretCipher)

def encrypt (nonce : Nonce) (plaintext context : Bytes) : Text :=
  serialize cipher.activeVersion nonce.1 (aes.encrypt cipher.activeKey nonce.1 plaintext context)

def decrypt (serialized : Text) (context : Bytes) : Except SecretError Bytes := do
  let envelope ← parseEnvelope serialized
  match cipher.keys.lookup envelope.version with
  | none => throw .unknownKeyVersion
  | some key =>
    match aes.decrypt key envelope.nonce envelope.ciphertext context with
    | some plaintext => return plaintext
    | none => throw .decryptionFailed

variable {aes} {cipher}

theorem active_valid : isVersion cipher.activeVersion = true ∧ cipher.activeKey.length = 32 :=
  cipher.keys_valid _ (mem_of_lookup cipher.lookup_active)

/-- The envelope of a plaintext. -/
def sealed (haes : aes.Correct) (cipher : ApplicationSecretCipher) (nonce : Nonce) (plaintext context : Bytes) : Envelope where
  version := cipher.activeVersion
  nonce := nonce.1
  ciphertext := aes.encrypt cipher.activeKey nonce.1 plaintext context
  version_valid := active_valid.1
  nonce_length := nonce.2
  tag_length := by
    rw [haes.length_encrypt]
    omega

variable {nonce : Nonce} {plaintext context : Bytes} {serialized : Text}

theorem parseEnvelope_encrypt (haes : aes.Correct) :
    parseEnvelope (cipher.encrypt aes nonce plaintext context) = .ok (sealed haes cipher nonce plaintext context) :=
  parseEnvelope_serialize (sealed haes cipher nonce plaintext context)

/-- What the cipher encrypted it opens. -/
theorem decrypt_encrypt (haes : aes.Correct) :
    cipher.decrypt aes (cipher.encrypt aes nonce plaintext context) context = .ok plaintext := by
  have hkey : cipher.activeKey.length = 32 := active_valid.2
  have hopen : aes.decrypt cipher.activeKey nonce.1 (aes.encrypt cipher.activeKey nonce.1 plaintext context) context = some plaintext :=
    haes.decrypt_encrypt hkey nonce.2
  unfold decrypt
  rw [parseEnvelope_encrypt haes, ok_bind]
  simp only [sealed, cipher.lookup_active, hopen]
  rfl

theorem decrypt_eq_ok (h : cipher.decrypt aes serialized context = .ok plaintext) : ∃ e, parseEnvelope serialized = .ok e := by
  obtain ⟨e, he, -⟩ := bind_eq_ok.mp h
  exact ⟨e, he⟩

theorem encrypt_ne_nil : cipher.encrypt aes nonce plaintext context ≠ [] := by
  unfold encrypt serialize
  rw [List.intercalate_cons_cons]
  exact List.cons_ne_nil _ _

end ApplicationSecretCipher

end FireDash.ApplicationSecrets
