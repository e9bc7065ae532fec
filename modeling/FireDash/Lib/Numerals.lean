import FireDash.Lib.JsonCanonical

/-! Texts that Python reads as integers and as UUIDs, and the canonical texts it writes for them. -/
namespace FireDash.Numerals

open Json (Text isDigit isSpace hexChar)

/-! ### `int(text, base)` -/

/-- What `int` skips around a number. -/
def isPad (c : ℕ) : Bool := (9 ≤ c ∧ c ≤ 13) ∨ c = 32 ∨ (127 ≤ c ∧ isSpace c)

/-- The value of a digit; `decimal` gives that of a decimal digit beyond ASCII. -/
def digitOf (decimal : ℕ → Option ℕ) (c : ℕ) : Option ℕ :=
  if isDigit c then some (c - 48)
  else if 97 ≤ c ∧ c ≤ 122 then some (c - 87)
  else if 65 ≤ c ∧ c ≤ 90 then some (c - 55)
  else if 127 ≤ c then decimal c
  else none

/-- Digits after the first one; an underscore may stand before each. -/
def readDigits (decimal : ℕ → Option ℕ) (base : ℕ) : ℕ → Text → Option ℕ
  | acc, [] => some acc
  | acc, c :: rest =>
    match digitOf decimal c with
    | some d => if d < base then readDigits decimal base (acc * base + d) rest else none
    | none =>
      match c, rest with
      | 95, c' :: rest =>
        match digitOf decimal c' with
        | some d => if d < base then readDigits decimal base (acc * base + d) rest else none
        | none => none
      | _, _ => none

/-- A number without its sign. -/
def readNat (decimal : ℕ → Option ℕ) (base : ℕ) : Text → Option ℕ
  | [] => none
  | c :: rest =>
    match digitOf decimal c with
    | some d => if d < base then readDigits decimal base d rest else none
    | none => none

/-- A hexadecimal number may have a prefix, with an underscore behind it. -/
def dropBase (base : ℕ) : Text → Text
  | 48 :: x :: rest =>
    if base = 16 ∧ (x = 120 ∨ x = 88) then
      match rest with
      | 95 :: rest => rest
      | rest => rest
    else 48 :: x :: rest
  | t => t

/-- `int(text, base)`; `none` where it raises. -/
def readInt (decimal : ℕ → Option ℕ) (base : ℕ) (t : Text) : Option ℤ :=
  match ((t.dropWhile isPad).reverse.dropWhile isPad).reverse with
  | 45 :: rest => (readNat decimal base (dropBase base rest)).map fun n => -(n : ℤ)
  | 43 :: rest => (readNat decimal base (dropBase base rest)).map fun n => (n : ℤ)
  | t => (readNat decimal base (dropBase base t)).map fun n => (n : ℤ)

/-! ### UUIDs -/

abbrev Uuid := BitVec 128

/-- So many hexadecimal digits of a number, the highest first. -/
def hexDigits : ℕ → ℕ → Text
  | 0, _ => []
  | k + 1, n => hexDigits k (n / 16) ++ [hexChar (n % 16)]

/-- `str(uuid)` -/
def Uuid.str (u : Uuid) : Text :=
  let h := hexDigits 32 u.toNat
  h.take 8 ++ 45 :: ((h.drop 8).take 4 ++ 45 :: ((h.drop 12).take 4 ++ 45 :: ((h.drop 16).take 4 ++ 45 :: h.drop 20)))

/-- `text.replace(pattern, "")`; `skip` characters of an occurrence are still to be passed. -/
def removeAll (pattern : Text) : ℕ → Text → Text
  | _, [] => []
  | skip + 1, _ :: rest => removeAll pattern skip rest
  | 0, c :: rest =>
    if pattern.isPrefixOf (c :: rest) then removeAll pattern (pattern.length - 1) rest
    else c :: removeAll pattern 0 rest

/-- `text.strip("{}")` -/
def stripBraces (t : Text) : Text :=
  ((t.dropWhile fun c => c = 123 ∨ c = 125).reverse.dropWhile fun c => c = 123 ∨ c = 125).reverse

/-- `uuid.UUID(text)`; `none` where it raises. -/
def Uuid.read (decimal : ℕ → Option ℕ) (t : Text) : Option Uuid :=
  let hex := (stripBraces (removeAll (Json.text "uuid:") 0 (removeAll (Json.text "urn:") 0 t))).filter (· ≠ 45)
  if hex.length = 32 then
    match readInt decimal 16 hex with
    | some (.ofNat n) => if n < 2 ^ 128 then some (BitVec.ofNat 128 n) else none
    | _ => none
  else none

/-! ### The canonical text of a UUID -/

section

variable {decimal : ℕ → Option ℕ}

theorem hexChar_cases : ∀ d < 16, 48 ≤ hexChar d ∧ hexChar d ≤ 57 ∨ 97 ≤ hexChar d ∧ hexChar d ≤ 102 := by decide

theorem digitOf_hexChar {d : ℕ} (h : d < 16) : digitOf decimal (hexChar d) = some d := by
  unfold digitOf hexChar
  by_cases hd : d < 10
  · have hdigit : isDigit (48 + d) = true := decide_eq_true (by omega)
    rw [if_pos hd, if_pos hdigit]
    congr 1
    omega
  · have hdigit : ¬isDigit (87 + d) = true := fun hdigit => by
      have hle := (of_decide_eq_true hdigit).2
      omega
    rw [if_neg hd, if_neg hdigit, if_pos (by omega)]
    congr 1
    omega

theorem length_hexDigits (k n : ℕ) : (hexDigits k n).length = k := by
  induction k generalizing n with
  | zero => rfl
  | succ k ih => rw [hexDigits, List.length_append, ih, List.length_singleton]

theorem mem_hexDigits {k n c : ℕ} (h : c ∈ hexDigits k n) : ∃ d < 16, c = hexChar d := by
  induction k generalizing n with
  | zero => cases h
  | succ k ih =>
    rw [hexDigits, List.mem_append, List.mem_singleton] at h
    rcases h with h | h
    · exact ih h
    · exact ⟨n % 16, Nat.mod_lt _ (by omega), h⟩

/-- The digits of a number are read after those before it. -/
theorem readDigits_append {s t : Text} (hs : ∀ c ∈ s, ∃ d < 16, c = hexChar d) (acc : ℕ) :
    readDigits decimal 16 acc (s ++ t) =
      readDigits decimal 16 (s.foldl (fun n c => n * 16 + (digitOf decimal c).getD 0) acc) t := by
  induction s generalizing acc with
  | nil => rfl
  | cons c s ih =>
    obtain ⟨d, hd, rfl⟩ := hs c List.mem_cons_self
    rw [List.cons_append, readDigits.eq_def]
    simp only [digitOf_hexChar hd, if_pos hd, List.foldl_cons, Option.getD_some]
    exact ih (fun c hc => hs c (List.mem_cons_of_mem _ hc)) _

theorem foldl_hexDigits (k n acc : ℕ) :
    (hexDigits k n).foldl (fun m c => m * 16 + (digitOf decimal c).getD 0) acc = acc * 16 ^ k + n % 16 ^ k := by
  induction k generalizing n with
  | zero => simp [hexDigits, Nat.mod_one]
  | succ k ih =>
    have hlast : n % 16 < 16 := Nat.mod_lt _ (by omega)
    have hsplit : n % 16 ^ (k + 1) = n % 16 + 16 * (n / 16 % 16 ^ k) := by
      rw [Nat.pow_succ, Nat.mul_comm, Nat.mod_mul]
    rw [hexDigits, List.foldl_append, ih, List.foldl_cons, List.foldl_nil, digitOf_hexChar hlast, Option.getD_some,
      hsplit, Nat.pow_succ, ← Nat.mul_assoc]
    omega

/-- A hexadecimal text is read as a number. -/
theorem readInt_hexDigits (k n : ℕ) : readInt decimal 16 (hexDigits (k + 1) n) = some (.ofNat (n % 16 ^ (k + 1))) := by
  have hmem : ∀ c ∈ hexDigits (k + 1) n, ∃ d < 16, c = hexChar d := fun c hc => mem_hexDigits hc
  have hpad : ∀ c ∈ hexDigits (k + 1) n, ¬isPad c = true := by
    intro c hc hpad
    obtain ⟨d, hd, rfl⟩ := hmem c hc
    have hrange := hexChar_cases d hd
    have hcases := of_decide_eq_true hpad
    omega
  have hfold := @foldl_hexDigits decimal (k + 1) n 0
  have hlength := length_hexDigits (k + 1) n
  have hstrip : (((hexDigits (k + 1) n).dropWhile isPad).reverse.dropWhile isPad).reverse = hexDigits (k + 1) n := by
    have hkeep : ∀ t : Text, (∀ c ∈ t, ¬isPad c = true) → t.dropWhile isPad = t := by
      intro t ht
      cases t with
      | nil => rfl
      | cons c t => exact List.dropWhile_cons_of_neg (ht c List.mem_cons_self)
    rw [hkeep _ hpad, hkeep _ fun c hc => hpad c (List.mem_reverse.mp hc), List.reverse_reverse]
  unfold readInt
  rw [hstrip]
  generalize hexDigits (k + 1) n = t at hmem hfold hlength
  cases t with
  | nil => cases hlength
  | cons c rest =>
    obtain ⟨d, hd, rfl⟩ := hmem c List.mem_cons_self
    have hrange := hexChar_cases d hd
    have hbase : dropBase 16 (hexChar d :: rest) = hexChar d :: rest := by
      unfold dropBase
      split
      · rename_i x rest' heq
        obtain ⟨-, rfl⟩ := List.cons.inj heq
        obtain ⟨e, he, rfl⟩ := hmem x (List.mem_cons_of_mem _ List.mem_cons_self)
        have hrange' := hexChar_cases e he
        rw [if_neg (by omega), heq]
      · rfl
    have hread : readNat decimal 16 (hexChar d :: rest) = some (n % 16 ^ (k + 1)) := by
      have hdigits := @readDigits_append decimal _ [] (fun c hc => hmem c (List.mem_cons_of_mem _ hc)) d
      rw [List.foldl_cons, digitOf_hexChar hd, Option.getD_some, Nat.zero_mul, Nat.zero_add, Nat.zero_mul, Nat.zero_add] at hfold
      rw [List.append_nil, hfold] at hdigits
      simp only [readNat, digitOf_hexChar hd, if_pos hd]
      exact hdigits
    split
    · rename_i heq
      have hhead := (List.cons.inj heq).1
      omega
    · rename_i heq
      have hhead := (List.cons.inj heq).1
      omega
    · rw [hbase, hread]
      rfl

theorem mem_str {u : Uuid} {c : ℕ} (h : c ∈ u.str) : c = 45 ∨ ∃ d < 16, c = hexChar d := by
  simp only [Uuid.str, List.mem_append, List.mem_cons] at h
  rcases h with h | rfl | h | rfl | h | rfl | h | rfl | h
  · exact .inr (mem_hexDigits (List.mem_of_mem_take h))
  · exact .inl rfl
  · exact .inr (mem_hexDigits (List.mem_of_mem_drop (List.mem_of_mem_take h)))
  · exact .inl rfl
  · exact .inr (mem_hexDigits (List.mem_of_mem_drop (List.mem_of_mem_take h)))
  · exact .inl rfl
  · exact .inr (mem_hexDigits (List.mem_of_mem_drop (List.mem_of_mem_take h)))
  · exact .inl rfl
  · exact .inr (mem_hexDigits (List.mem_of_mem_drop h))

theorem removeAll_of_not_mem {pattern t : Text} {c : ℕ} {rest : Text} (hpattern : pattern = c :: rest) (h : c ∉ t) :
    removeAll pattern 0 t = t := by
  induction t with
  | nil => rfl
  | cons d t ih =>
    have hd : c ≠ d := fun heq => h (heq ▸ List.mem_cons_self)
    have hno : ¬pattern.isPrefixOf (d :: t) = true := by
      rw [hpattern, List.isPrefixOf_cons_cons, Bool.and_eq_true, beq_iff_eq]
      exact fun hboth => hd hboth.1
    rw [removeAll, if_neg hno, ih fun hc => h (List.mem_cons_of_mem _ hc)]

/-- The digits of a UUID are what is left of its text without the hyphens. -/
theorem filter_str (u : Uuid) : u.str.filter (· ≠ 45) = hexDigits 32 u.toNat := by
  have hkeep : ∀ t : Text, (∀ c ∈ t, ∃ d < 16, c = hexChar d) → t.filter (· ≠ 45) = t := by
    intro t ht
    refine List.filter_eq_self.mpr fun c hc => ?_
    obtain ⟨d, hd, rfl⟩ := ht c hc
    have hrange := hexChar_cases d hd
    exact decide_eq_true (by omega)
  have htake : ∀ m n, ∀ c ∈ ((hexDigits 32 u.toNat).drop m).take n, ∃ d < 16, c = hexChar d :=
    fun m n c hc => mem_hexDigits (List.mem_of_mem_drop (List.mem_of_mem_take hc))
  have hdrop : ∀ c ∈ (hexDigits 32 u.toNat).drop 20, ∃ d < 16, c = hexChar d := fun c hc => mem_hexDigits (List.mem_of_mem_drop hc)
  have hfirst := htake 0 8
  rw [List.drop_zero] at hfirst
  have hhyphen : ∀ t : Text, (45 :: t).filter (· ≠ 45) = t.filter (· ≠ 45) := fun _ => rfl
  have hjoin : ∀ (t : Text) (m n : ℕ), (t.drop m).take n ++ t.drop (m + n) = t.drop m := by
    intro t m n
    rw [← List.drop_drop, List.take_append_drop]
  unfold Uuid.str
  simp only [List.filter_append, hhyphen, hkeep _ hfirst, hkeep _ (htake _ _), hkeep _ hdrop]
  rw [hjoin _ 16 4, hjoin _ 12 4, hjoin _ 8 4]
  exact List.take_append_drop 8 _

/-- Python reads the text it writes for a UUID. -/
theorem read_str (u : Uuid) : Uuid.read decimal u.str = some u := by
  have hchars : ∀ c ∈ u.str, c = 45 ∨ 48 ≤ c ∧ c ≤ 57 ∨ 97 ≤ c ∧ c ≤ 102 := by
    intro c hc
    rcases mem_str hc with rfl | ⟨d, hd, rfl⟩
    · exact .inl rfl
    · exact .inr (hexChar_cases d hd)
  have hu : 117 ∉ u.str := fun h => by
    have hrange := hchars 117 h
    omega
  have hbraces : stripBraces u.str = u.str := by
    have hkeep : ∀ t : Text, (∀ c ∈ t, c ∈ u.str) → t.dropWhile (fun c => decide (c = 123 ∨ c = 125)) = t := by
      intro t ht
      cases t with
      | nil => rfl
      | cons c t =>
        refine List.dropWhile_cons_of_neg fun hbrace => ?_
        have hrange := hchars c (ht c List.mem_cons_self)
        have hcases := of_decide_eq_true hbrace
        omega
    unfold stripBraces
    rw [hkeep _ fun _ hc => hc, hkeep _ fun _ hc => List.mem_reverse.mp hc, List.reverse_reverse]
  have hsmall : u.toNat < 16 ^ (31 + 1) := u.isLt
  unfold Uuid.read
  dsimp only
  rw [@removeAll_of_not_mem (Json.text "urn:") _ _ _ rfl hu, @removeAll_of_not_mem (Json.text "uuid:") _ _ _ rfl hu,
    hbraces, filter_str, if_pos (length_hexDigits 32 _), readInt_hexDigits, Nat.mod_eq_of_lt hsmall]
  dsimp only
  rw [if_pos u.isLt, BitVec.ofNat_toNat, BitVec.setWidth_eq]

theorem str_injective {u w : Uuid} (h : u.str = w.str) : u = w := by
  have hu := @read_str (fun _ => none) u
  rw [h, read_str] at hu
  exact (Option.some.inj hu).symm

theorem str_ascii {u : Uuid} {c : ℕ} (h : c ∈ u.str) : c < 128 := by
  rcases mem_str h with rfl | ⟨d, hd, rfl⟩
  · omega
  · have hrange := hexChar_cases d hd
    omega

end

end FireDash.Numerals
