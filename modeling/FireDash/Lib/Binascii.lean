import FireDash.Lib.Base64
import Mathlib.Data.List.DropRight

/-! Padded base64 as Python's `binascii` and `base64` read and write it, and its agreement with the unpadded groups. -/
namespace FireDash.Binascii

open Json (Text)

abbrev Bytes := List UInt8

/-! ### Definitions -/

def pad : ℕ := 61

/-- `table_b2a_base64` -/
def sextetChar (n : ℕ) : ℕ :=
  if n < 26 then 65 + n else if n < 52 then 71 + n else if n < 62 then n - 4 else if n = 62 then 43 else 47

/-- `table_a2b_base64`, with nothing for a byte outside the alphabet. -/
def charSextet (c : ℕ) : Option ℕ :=
  if 65 ≤ c ∧ c ≤ 90 then some (c - 65)
  else if 97 ≤ c ∧ c ≤ 122 then some (c - 71)
  else if 48 ≤ c ∧ c ≤ 57 then some (c + 4)
  else if c = 43 then some 62
  else if c = 47 then some 63
  else none

/-- `binascii.b2a_base64(data, newline=False)` -/
def b2aBase64 : Bytes → Text
  | [] => []
  | [a] => [sextetChar (a.toNat / 4), sextetChar (a.toNat % 4 * 16), pad, pad]
  | [a, b] => [sextetChar (a.toNat / 4), sextetChar (a.toNat % 4 * 16 + b.toNat / 16), sextetChar (b.toNat % 16 * 4), pad]
  | a :: b :: c :: rest =>
    sextetChar (a.toNat / 4) :: sextetChar (a.toNat % 4 * 16 + b.toNat / 16) ::
      sextetChar (b.toNat % 16 * 4 + c.toNat / 64) :: sextetChar (c.toNat % 64) :: b2aBase64 rest

/-- The loop of `binascii.a2b_base64` in strict mode: the place in the quad, the bits not written yet,
the pads of the quad, and whether padding has begun. -/
def a2bQuads (quadPos leftchar pads : ℕ) (paddingStarted : Bool) : Text → Option Bytes
  | [] => if quadPos = 0 then some [] else none
  | c :: rest =>
    if c = pad then
      if quadPos = 0 then none
      else if quadPos = 1 then a2bQuads quadPos leftchar pads true rest
      else if 4 ≤ quadPos + (pads + 1) then if rest = [] then some [] else none
      else a2bQuads quadPos leftchar (pads + 1) true rest
    else
      match charSextet c with
      | none => none
      | some this =>
        if paddingStarted then none
        else if quadPos = 0 then a2bQuads 1 this 0 false rest
        else if quadPos = 1 then (a2bQuads 2 (this % 16) 0 false rest).map (UInt8.ofNat (leftchar * 4 + this / 16) :: ·)
        else if quadPos = 2 then (a2bQuads 3 (this % 4) 0 false rest).map (UInt8.ofNat (leftchar * 16 + this / 4) :: ·)
        else (a2bQuads 0 0 0 false rest).map (UInt8.ofNat (leftchar * 64 + this) :: ·)

/-- `binascii.a2b_base64(data, strict_mode=True)` -/
def a2bBase64 (data : Text) : Option Bytes := a2bQuads 0 0 0 false data

/-- `bytes.maketrans` of two characters. -/
def translate (source target : ℕ × ℕ) (c : ℕ) : ℕ :=
  if c = source.2 then target.2 else if c = source.1 then target.1 else c

/-- `base64.b64decode(s, altchars, validate=True)` of a text. -/
def b64decode (altchars : ℕ × ℕ) (s : Text) : Option Bytes :=
  if s.all (· < 128) then a2bBase64 (s.map (translate altchars (43, 47))) else none

/-- `base64.urlsafe_b64encode(s)` -/
def urlsafeB64encode (s : Bytes) : Text := (b2aBase64 s).map (translate (43, 47) (45, 95))

/-- `value + "=" * (-len(value) % 4)` -/
def padded (value : Text) : Text := value ++ List.replicate (-(value.length : ℤ) % 4).toNat pad

/-! ### Writing -/

theorem translate_sextetChar : ∀ n < 64, translate (43, 47) (45, 95) (sextetChar n) = Base64.sextetChar n := by decide

/-- Base64url is the unpadded groups, then pads. -/
theorem urlsafeB64encode_eq (bytes : Bytes) :
    ∃ n, urlsafeB64encode bytes = Base64.encode bytes ++ List.replicate n pad := by
  unfold urlsafeB64encode
  fun_induction Base64.encode bytes with
  | case1 => exact ⟨0, rfl⟩
  | case2 a =>
    have ha := a.toNat_lt
    refine ⟨2, ?_⟩
    simp (disch := omega) only [b2aBase64, List.map_cons, List.map_nil, translate_sextetChar]
    rfl
  | case3 a b =>
    have ha := a.toNat_lt
    have hb := b.toNat_lt
    refine ⟨1, ?_⟩
    simp (disch := omega) only [b2aBase64, List.map_cons, List.map_nil, translate_sextetChar]
    rfl
  | case4 a b c rest ih =>
    have ha := a.toNat_lt
    have hb := b.toNat_lt
    have hc := c.toNat_lt
    obtain ⟨n, hn⟩ := ih
    refine ⟨n, ?_⟩
    simp (disch := omega) only [b2aBase64, List.map_cons, translate_sextetChar, hn, List.cons_append]

theorem rdropWhile_pad {t : Text} (h : pad ∉ t) (n : ℕ) :
    (t ++ List.replicate n pad).rdropWhile (· = pad) = t := by
  induction n with
  | zero =>
    rw [List.replicate_zero, List.append_nil, List.rdropWhile_eq_self_iff]
    intro hne hlast
    exact h (of_decide_eq_true hlast ▸ List.getLast_mem hne)
  | succ n ih =>
    rw [List.replicate_succ', ← List.append_assoc, List.rdropWhile_concat_pos _ _ pad (by decide), ih]

/-- Without its pads base64url is the groups. -/
theorem rdropWhile_urlsafeB64encode (bytes : Bytes) :
    (urlsafeB64encode bytes).rdropWhile (· = pad) = Base64.encode bytes := by
  obtain ⟨n, hn⟩ := urlsafeB64encode_eq bytes
  rw [hn]
  exact rdropWhile_pad (Base64.not_mem_encode (by decide)) n

/-! ### Reading -/

/-- A character of the url-safe alphabet stands for the same six bits after the translation. -/
theorem charSextet_translate {c : ℕ} (h : Base64.isUrlSafe c = true) :
    translate (45, 95) (43, 47) c ≠ pad ∧ charSextet (translate (45, 95) (43, 47) c) = some (Base64.charSextet c) := by
  have hall : ∀ c < 123, Base64.isUrlSafe c = true →
      translate (45, 95) (43, 47) c ≠ pad ∧ charSextet (translate (45, 95) (43, 47) c) = some (Base64.charSextet c) := by
    decide
  exact hall c (Base64.lt_of_isUrlSafe h) h

/-- One character of the alphabet before any padding. -/
theorem a2bQuads_cons {c leftchar quadPos : ℕ} {rest : Text} (h : Base64.isUrlSafe c = true) :
    a2bQuads quadPos leftchar 0 false (translate (45, 95) (43, 47) c :: rest) =
    if quadPos = 0 then a2bQuads 1 (Base64.charSextet c) 0 false rest
    else if quadPos = 1 then (a2bQuads 2 (Base64.charSextet c % 16) 0 false rest).map
      (UInt8.ofNat (leftchar * 4 + Base64.charSextet c / 16) :: ·)
    else if quadPos = 2 then (a2bQuads 3 (Base64.charSextet c % 4) 0 false rest).map
      (UInt8.ofNat (leftchar * 16 + Base64.charSextet c / 4) :: ·)
    else (a2bQuads 0 0 0 false rest).map (UInt8.ofNat (leftchar * 64 + Base64.charSextet c) :: ·) := by
  obtain ⟨hpad, hsextet⟩ := charSextet_translate h
  rw [a2bQuads, if_neg hpad, hsextet]
  rfl

theorem padded_cons4 (a b c d : ℕ) (rest : Text) : padded (a :: b :: c :: d :: rest) = a :: b :: c :: d :: padded rest := by
  have hlength : (-((a :: b :: c :: d :: rest).length : ℤ)) % 4 = (-(rest.length : ℤ)) % 4 := by
    simp only [List.length_cons]
    omega
  unfold padded
  rw [hlength]
  rfl

/-- The strict reader takes a padded text of the alphabet as the unpadded groups. -/
theorem a2bBase64_padded {value : Text} (h : value.all Base64.isUrlSafe = true) :
    a2bBase64 ((padded value).map (translate (45, 95) (43, 47))) = Base64.b64decode value := by
  unfold a2bBase64
  fun_induction Base64.b64decode value with
  | case1 => rfl
  | case2 a =>
    -- One character is six bits of a byte, whatever padding follows.
    simp only [List.all_cons, List.all_nil, Bool.and_true] at h
    change a2bQuads 0 0 0 false (translate (45, 95) (43, 47) a :: [pad, pad, pad]) = none
    rw [a2bQuads_cons h]
    rfl
  | case3 a b =>
    simp only [List.all_cons, List.all_nil, Bool.and_true, Bool.and_eq_true] at h
    obtain ⟨ha, hb⟩ := h
    change a2bQuads 0 0 0 false (translate (45, 95) (43, 47) a :: translate (45, 95) (43, 47) b :: [pad, pad]) = _
    rw [a2bQuads_cons ha, if_pos rfl, a2bQuads_cons hb]
    rfl
  | case4 a b c =>
    simp only [List.all_cons, List.all_nil, Bool.and_true, Bool.and_eq_true] at h
    obtain ⟨ha, hb, hc⟩ := h
    change a2bQuads 0 0 0 false
      (translate (45, 95) (43, 47) a :: translate (45, 95) (43, 47) b :: translate (45, 95) (43, 47) c :: [pad]) = _
    rw [a2bQuads_cons ha, if_pos rfl, a2bQuads_cons hb, if_neg (by decide), if_pos rfl, a2bQuads_cons hc]
    rfl
  | case5 a b c d rest ih =>
    simp only [List.all_cons, Bool.and_eq_true] at h
    obtain ⟨ha, hb, hc, hd, hrest⟩ := h
    rw [padded_cons4, List.map_cons, List.map_cons, List.map_cons, List.map_cons, a2bQuads_cons ha, if_pos rfl,
      a2bQuads_cons hb, if_neg (by decide), if_pos rfl, a2bQuads_cons hc, if_neg (by decide), if_neg (by decide), if_pos rfl,
      a2bQuads_cons hd, if_neg (by decide), if_neg (by decide), if_neg (by decide), ih hrest]
    cases Base64.b64decode rest with
    | none => rfl
    | some tail => rfl

/-- Strict decoding of a padded text of the alphabet. -/
theorem b64decode_padded {value : Text} (h : value.all Base64.isUrlSafe = true) :
    b64decode (45, 95) (padded value) = Base64.b64decode value := by
  have hascii : (padded value).all (· < 128) = true := by
    unfold padded
    rw [List.all_append, Bool.and_eq_true, List.all_eq_true, List.all_eq_true]
    constructor
    · intro c hc
      have hlt := Base64.lt_of_isUrlSafe (List.all_eq_true.mp h c hc)
      exact decide_eq_true (by omega)
    · intro c hc
      rw [List.eq_of_mem_replicate hc]
      decide
  unfold b64decode
  rw [if_pos hascii, a2bBase64_padded h]

end FireDash.Binascii
