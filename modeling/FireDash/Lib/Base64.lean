import FireDash.Lib.Json

/-! Unpadded base64url: bytes as groups of four characters, and the last group of two or three. -/
namespace FireDash.Base64

open Json (Text)

/-- `[A-Za-z0-9_-]`. -/
def isUrlSafe (c : ℕ) : Bool := 65 ≤ c ∧ c ≤ 90 ∨ 97 ≤ c ∧ c ≤ 122 ∨ 48 ≤ c ∧ c ≤ 57 ∨ c = 95 ∨ c = 45

def sextetChar (n : ℕ) : ℕ :=
  if n < 26 then 65 + n else if n < 52 then 71 + n else if n < 62 then n - 4 else if n = 62 then 45 else 95

def charSextet (c : ℕ) : ℕ :=
  if 65 ≤ c ∧ c ≤ 90 then c - 65
  else if 97 ≤ c ∧ c ≤ 122 then c - 71
  else if 48 ≤ c ∧ c ≤ 57 then c + 4
  else if c = 45 then 62
  else 63

/-- Unpadded base64url. -/
def encode : List UInt8 → Text
  | [] => []
  | [a] => [sextetChar (a.toNat / 4), sextetChar (a.toNat % 4 * 16)]
  | [a, b] => [sextetChar (a.toNat / 4), sextetChar (a.toNat % 4 * 16 + b.toNat / 16), sextetChar (b.toNat % 16 * 4)]
  | a :: b :: c :: rest =>
    sextetChar (a.toNat / 4) :: sextetChar (a.toNat % 4 * 16 + b.toNat / 16) ::
      sextetChar (b.toNat % 16 * 4 + c.toNat / 64) :: sextetChar (c.toNat % 64) :: encode rest

/-- `base64.b64decode` of a text of the alphabet with its padding restored; the unused bits
of the last character are dropped. -/
def b64decode : Text → Option (List UInt8)
  | [] => some []
  | [_] => none
  | [a, b] => some [UInt8.ofNat (charSextet a * 4 + charSextet b / 16)]
  | [a, b, c] => some [UInt8.ofNat (charSextet a * 4 + charSextet b / 16),
      UInt8.ofNat (charSextet b % 16 * 16 + charSextet c / 4)]
  | a :: b :: c :: d :: rest =>
    (b64decode rest).map fun tail =>
      UInt8.ofNat (charSextet a * 4 + charSextet b / 16) ::
        UInt8.ofNat (charSextet b % 16 * 16 + charSextet c / 4) ::
          UInt8.ofNat (charSextet c % 4 * 64 + charSextet d) :: tail

/-- A text of the alphabet in groups of four and a last group of two or three, with the unused bits zero. -/
structure Canonical (t : Text) : Prop where
  alphabet : t.all isUrlSafe = true
  length : t.length % 4 ≠ 1
  two : ∀ c, t.getLast? = some c → t.length % 4 = 2 → charSextet c % 16 = 0
  three : ∀ c, t.getLast? = some c → t.length % 4 = 3 → charSextet c % 4 = 0

theorem charSextet_sextetChar : ∀ n < 64, charSextet (sextetChar n) = n := by decide

theorem isUrlSafe_sextetChar : ∀ n < 64, isUrlSafe (sextetChar n) = true := by decide

theorem ofNat_of_toNat_eq {a : UInt8} {n : ℕ} (h : n = a.toNat) : UInt8.ofNat n = a := by
  rw [h, UInt8.ofNat_toNat]

/-- Encoded bytes are read back. -/
theorem b64decode_encode (bytes : List UInt8) : b64decode (encode bytes) = some bytes := by
  fun_induction encode bytes with
  | case1 => rfl
  | case2 a =>
    have ha := a.toNat_lt
    rw [b64decode, charSextet_sextetChar _ (by omega), charSextet_sextetChar _ (by omega),
      ofNat_of_toNat_eq (a := a) (by omega)]
  | case3 a b =>
    have ha := a.toNat_lt
    have hb := b.toNat_lt
    rw [b64decode, charSextet_sextetChar _ (by omega), charSextet_sextetChar _ (by omega), charSextet_sextetChar _ (by omega),
      ofNat_of_toNat_eq (a := a) (by omega), ofNat_of_toNat_eq (a := b) (by omega)]
  | case4 a b c rest ih =>
    have ha := a.toNat_lt
    have hb := b.toNat_lt
    have hc := c.toNat_lt
    rw [b64decode, ih, charSextet_sextetChar _ (by omega), charSextet_sextetChar _ (by omega),
      charSextet_sextetChar _ (by omega), charSextet_sextetChar _ (by omega), ofNat_of_toNat_eq (a := a) (by omega),
      ofNat_of_toNat_eq (a := b) (by omega), ofNat_of_toNat_eq (a := c) (by omega)]
    rfl

/-- An encoded text holds characters of the alphabet only. -/
theorem all_isUrlSafe_encode (bytes : List UInt8) : (encode bytes).all isUrlSafe = true := by
  fun_induction encode bytes with
  | case1 => rfl
  | case2 a =>
    have ha := a.toNat_lt
    simp (disch := omega) only [List.all_cons, List.all_nil, isUrlSafe_sextetChar, Bool.and_true]
  | case3 a b =>
    have ha := a.toNat_lt
    have hb := b.toNat_lt
    simp (disch := omega) only [List.all_cons, List.all_nil, isUrlSafe_sextetChar, Bool.and_true]
  | case4 a b c rest ih =>
    have ha := a.toNat_lt
    have hb := b.toNat_lt
    have hc := c.toNat_lt
    simp (disch := omega) only [List.all_cons, ih, isUrlSafe_sextetChar, Bool.and_true]

theorem encode_ne_nil {bytes : List UInt8} (h : bytes ≠ []) : encode bytes ≠ [] := by
  fun_cases encode bytes with
  | case1 => exact absurd rfl h
  | _ => nofun

/-- A character of an encoded text, which is no separator. -/
theorem not_mem_encode {bytes : List UInt8} {c : ℕ} (h : isUrlSafe c = false) : c ∉ encode bytes := by
  intro hc
  have hsafe := List.all_eq_true.mp (all_isUrlSafe_encode bytes) c hc
  rw [h] at hsafe
  cases hsafe

/-! ### Canonical texts -/

theorem lt_of_isUrlSafe {c : ℕ} (h : isUrlSafe c = true) : c < 123 := by
  simp only [isUrlSafe, decide_eq_true_eq] at h
  omega

theorem charSextet_lt {c : ℕ} (h : isUrlSafe c = true) : charSextet c < 64 := by
  have hall : ∀ c < 123, isUrlSafe c = true → charSextet c < 64 := by decide
  exact hall c (lt_of_isUrlSafe h) h

theorem sextetChar_charSextet {c n : ℕ} (h : isUrlSafe c = true) (hn : n = charSextet c) : sextetChar n = c := by
  have hall : ∀ c < 123, isUrlSafe c = true → sextetChar (charSextet c) = c := by decide
  rw [hn]
  exact hall c (lt_of_isUrlSafe h) h

theorem getLast?_cons4 {a b c d l : ℕ} {t : Text} (h : t.getLast? = some l) : (a :: b :: c :: d :: t).getLast? = some l := by
  simp only [List.getLast?_cons, h, Option.getD_some]

/-- A first group of four says nothing of the last group. -/
theorem canonical_cons4 {a b c d : ℕ} {t : Text} : Canonical (a :: b :: c :: d :: t) ↔
    (isUrlSafe a = true ∧ isUrlSafe b = true ∧ isUrlSafe c = true ∧ isUrlSafe d = true) ∧ Canonical t := by
  have hlength : (a :: b :: c :: d :: t).length % 4 = t.length % 4 := by
    simp only [List.length_cons]
    omega
  constructor
  · intro h
    have halphabet := h.alphabet
    simp only [List.all_cons, Bool.and_eq_true] at halphabet
    obtain ⟨ha, hb, hc, hd, ht⟩ := halphabet
    refine ⟨⟨ha, hb, hc, hd⟩, ht, hlength ▸ h.length, fun l hl => ?_, fun l hl => ?_⟩
    · exact hlength ▸ h.two l (getLast?_cons4 hl)
    · exact hlength ▸ h.three l (getLast?_cons4 hl)
  · rintro ⟨⟨ha, hb, hc, hd⟩, h⟩
    have hlast : ∀ l, (a :: b :: c :: d :: t).getLast? = some l → t.length % 4 ≠ 0 → t.getLast? = some l := by
      intro l hl hne
      cases ht : t.getLast? with
      | none =>
        rw [List.getLast?_eq_none_iff.mp ht] at hne
        exact absurd rfl hne
      | some m => rw [← hl, getLast?_cons4 ht]
    refine ⟨?_, hlength ▸ h.length, fun l hl htwo => ?_, fun l hl hthree => ?_⟩
    · simp only [List.all_cons, ha, hb, hc, hd, h.alphabet, Bool.and_true]
    · rw [hlength] at htwo
      exact h.two l (hlast l hl (by omega)) htwo
    · rw [hlength] at hthree
      exact h.three l (hlast l hl (by omega)) hthree

theorem canonical_two {a b : ℕ} :
    Canonical [a, b] ↔ isUrlSafe a = true ∧ isUrlSafe b = true ∧ charSextet b % 16 = 0 := by
  constructor
  · intro h
    have halphabet := h.alphabet
    simp only [List.all_cons, List.all_nil, Bool.and_true, Bool.and_eq_true] at halphabet
    exact ⟨halphabet.1, halphabet.2, h.two b rfl rfl⟩
  · rintro ⟨ha, hb, hunused⟩
    refine ⟨by simp only [List.all_cons, List.all_nil, ha, hb, Bool.and_true], by simp, fun c hc _ => ?_, by simp⟩
    exact Option.some.inj hc ▸ hunused

theorem canonical_three {a b c : ℕ} : Canonical [a, b, c] ↔
    isUrlSafe a = true ∧ isUrlSafe b = true ∧ isUrlSafe c = true ∧ charSextet c % 4 = 0 := by
  constructor
  · intro h
    have halphabet := h.alphabet
    simp only [List.all_cons, List.all_nil, Bool.and_true, Bool.and_eq_true] at halphabet
    exact ⟨halphabet.1, halphabet.2.1, halphabet.2.2, h.three c rfl rfl⟩
  · rintro ⟨ha, hb, hc, hunused⟩
    refine ⟨by simp only [List.all_cons, List.all_nil, ha, hb, hc, Bool.and_true], by simp, by simp, fun d hd _ => ?_⟩
    exact Option.some.inj hd ▸ hunused

/-- What is encoded is canonical. -/
theorem canonical_encode (bytes : List UInt8) : Canonical (encode bytes) := by
  fun_induction encode bytes with
  | case1 => exact ⟨rfl, by decide, by simp, by simp⟩
  | case2 a =>
    have ha := a.toNat_lt
    rw [canonical_two, charSextet_sextetChar _ (by omega)]
    exact ⟨isUrlSafe_sextetChar _ (by omega), isUrlSafe_sextetChar _ (by omega), by omega⟩
  | case3 a b =>
    have ha := a.toNat_lt
    have hb := b.toNat_lt
    rw [canonical_three, charSextet_sextetChar _ (by omega)]
    exact ⟨isUrlSafe_sextetChar _ (by omega), isUrlSafe_sextetChar _ (by omega), isUrlSafe_sextetChar _ (by omega), by omega⟩
  | case4 a b c rest ih =>
    have ha := a.toNat_lt
    have hb := b.toNat_lt
    have hc := c.toNat_lt
    rw [canonical_cons4]
    exact ⟨⟨isUrlSafe_sextetChar _ (by omega), isUrlSafe_sextetChar _ (by omega), isUrlSafe_sextetChar _ (by omega),
      isUrlSafe_sextetChar _ (by omega)⟩, ih⟩

/-- A canonical text is read, and written back the same. -/
theorem encode_of_canonical {t : Text} (h : Canonical t) : ∃ bytes, b64decode t = some bytes ∧ encode bytes = t := by
  fun_induction b64decode t with
  | case1 => exact ⟨[], rfl, rfl⟩
  | case2 a => exact absurd rfl h.length
  | case3 a b =>
    obtain ⟨ha, hb, hunused⟩ := canonical_two.mp h
    have hla := charSextet_lt ha
    have hlb := charSextet_lt hb
    refine ⟨_, rfl, ?_⟩
    rw [encode, UInt8.toNat_ofNat', sextetChar_charSextet ha (by omega), sextetChar_charSextet hb (by omega)]
  | case4 a b c =>
    obtain ⟨ha, hb, hc, hunused⟩ := canonical_three.mp h
    have hla := charSextet_lt ha
    have hlb := charSextet_lt hb
    have hlc := charSextet_lt hc
    refine ⟨_, rfl, ?_⟩
    rw [encode, UInt8.toNat_ofNat', UInt8.toNat_ofNat', sextetChar_charSextet ha (by omega),
      sextetChar_charSextet hb (by omega), sextetChar_charSextet hc (by omega)]
  | case5 a b c d rest ih =>
    obtain ⟨⟨ha, hb, hc, hd⟩, hrest⟩ := canonical_cons4.mp h
    obtain ⟨bytes, hbytes, hencode⟩ := ih hrest
    have hla := charSextet_lt ha
    have hlb := charSextet_lt hb
    have hlc := charSextet_lt hc
    have hld := charSextet_lt hd
    refine ⟨_, by rw [hbytes]; rfl, ?_⟩
    rw [encode, hencode, UInt8.toNat_ofNat', UInt8.toNat_ofNat', UInt8.toNat_ofNat', sextetChar_charSextet ha (by omega),
      sextetChar_charSextet hb (by omega), sextetChar_charSextet hc (by omega), sextetChar_charSextet hd (by omega)]

end FireDash.Base64
