import FireDash.Lib.Binascii
import FireDash.ReportTransfer.Envelopes

/-! The base64url texts of the report envelope, over the padded strict codec they are written with. -/
namespace FireDash.ReportTransfer.Encoding

open Base64 (Canonical isUrlSafe)
open Binascii (b64decode pad padded urlsafeB64encode)
open Json (Text Value)
open Publications (Bytes)

def encode (raw : Bytes) : Text := (urlsafeB64encode raw).rdropWhile (· = pad)

def decode : Value → Except Error Bytes
  | .str value => do
    require (value ≠ [] ∧ value.all isUrlSafe)
    match b64decode (45, 95) (padded value) with
    | none => throw invalidPackage
    | some raw =>
      require (encode raw = value)
      return raw
  | _ => .error invalidPackage

variable {value : Text} {raw : Bytes}

theorem encode_eq (raw : Bytes) : encode raw = Base64.encode raw := Binascii.rdropWhile_urlsafeB64encode raw

/-- The services read the same bytes off the unpadded groups. -/
theorem decode_eq (value : Text) : decode (.str value) = ReportTransfer.decode value := by
  simp only [decode, ReportTransfer.decode]
  by_cases h : value ≠ [] ∧ value.all isUrlSafe = true
  · rw [Binascii.b64decode_padded h.2]
    simp only [encode_eq]
    rfl
  · simp only [require, if_neg h]
    rfl

theorem decode_eq_ok : decode (.str value) = .ok raw ↔ value ≠ [] ∧ value.all isUrlSafe = true ∧
    Base64.b64decode value = some raw ∧ Base64.encode raw = value := by
  rw [decode_eq]
  unfold ReportTransfer.decode
  constructor
  · intro h
    obtain ⟨_, hsafe, h⟩ := bind_eq_ok.mp h
    have hsafe := require_eq_ok.mp hsafe
    cases hread : Base64.b64decode value with
    | none =>
      rw [hread] at h
      cases h
    | some bytes =>
      rw [hread] at h
      obtain ⟨_, hsame, h⟩ := bind_eq_ok.mp h
      have hsame := require_eq_ok.mp hsame
      have hraw : bytes = raw := pure_eq_ok.mp h
      exact ⟨hsafe.1, hsafe.2, hraw ▸ rfl, hraw ▸ hsame⟩
  · rintro ⟨hne, hsafe, hread, hsame⟩
    rw [require, if_pos ⟨hne, hsafe⟩, ok_bind, hread]
    simp only [require, hsame, if_true, ok_bind]
    rfl

/-- There is one reason for a refusal. -/
theorem decode_eq_error {e : Error} {value : Value} (h : decode value = .error e) : e = invalidPackage := by
  cases value with
  | str value =>
    rw [decode_eq] at h
    unfold ReportTransfer.decode at h
    by_cases hsafe : value ≠ [] ∧ value.all isUrlSafe = true
    · rw [require, if_pos hsafe, ok_bind] at h
      cases hread : Base64.b64decode value with
      | none =>
        rw [hread] at h
        cases h
        rfl
      | some raw =>
        rw [hread] at h
        by_cases hsame : Base64.encode raw = value
        · simp only [require, hsame, if_true, ok_bind] at h
          cases h
        · simp only [require, hsame, if_false] at h
          cases h
          rfl
    · rw [require, if_neg hsafe] at h
      cases h
      rfl
  | _ =>
    cases h
    rfl

theorem decode_encode (h : raw ≠ []) : decode (.str (encode raw)) = .ok raw := by
  rw [decode_eq_ok, encode_eq]
  exact ⟨Base64.encode_ne_nil h, Base64.all_isUrlSafe_encode raw, Base64.b64decode_encode raw, rfl⟩

theorem accepted_iff : (∃ raw, decode (.str value) = .ok raw) ↔ value ≠ [] ∧ Canonical value := by
  constructor
  · rintro ⟨raw, h⟩
    obtain ⟨hne, -, -, hsame⟩ := decode_eq_ok.mp h
    exact ⟨hne, hsame ▸ Base64.canonical_encode raw⟩
  · rintro ⟨hne, hcanonical⟩
    obtain ⟨raw, hread, hsame⟩ := Base64.encode_of_canonical hcanonical
    exact ⟨raw, decode_eq_ok.mpr ⟨hne, hcanonical.alphabet, hread, hsame⟩⟩

/-- Bytes are read back from their encoding, an accepted text is the encoding of what is read, and what is accepted is
the canonical unpadded base64url texts; anything else is refused as an invalid package. -/
theorem canonical_texts :
    (∀ raw, raw ≠ [] → decode (.str (encode raw)) = .ok raw) ∧
    (∀ value raw, decode (.str value) = .ok raw → encode raw = value) ∧
    (∀ value, (∃ raw, decode (.str value) = .ok raw) ↔ value ≠ [] ∧ Canonical value) ∧
    ∀ v, (∀ value, v = .str value → ¬(value ≠ [] ∧ Canonical value)) → decode v = .error invalidPackage := by
  refine ⟨fun raw => decode_encode, fun value raw h => ?_, fun value => accepted_iff, fun v hv => ?_⟩
  · rw [encode_eq]
    exact (decode_eq_ok.mp h).2.2.2
  · cases hresult : decode v with
    | error e => rw [decode_eq_error hresult]
    | ok raw =>
      cases v with
      | str value => exact absurd (accepted_iff.mp ⟨raw, hresult⟩) (hv value rfl)
      | _ => cases hresult

end FireDash.ReportTransfer.Encoding
