import FireDash.Lib.Except
import Mathlib.Algebra.GroupWithZero.Nat
import Mathlib.Algebra.Ring.Int.Defs
import Mathlib.Data.Int.Notation
import Mathlib.Data.List.Basic
import Mathlib.Data.Nat.Notation
import Mathlib.Tactic.SplitIfs

/-! A JSON reader with the behaviour of Python's `json.loads`: duplicate keys, the constants
`NaN`, `Infinity` and `-Infinity`, lone surrogates, and the nesting and digit limits of the
interpreter. -/
namespace FireDash.Json

/-- A string as its code points, lone surrogates included. -/
abbrev Text := List ℕ

instance lawfulText : LawfulBEq Text := inferInstance

def text (s : String) : Text := s.toList.map Char.toNat

/-- Code points `str.strip` removes. -/
def isSpace (c : ℕ) : Bool :=
  c ∈ [9, 10, 11, 12, 13, 28, 29, 30, 31, 32, 133, 160, 5760, 8232, 8233, 8239, 8287, 12288] ∨
    (8192 ≤ c ∧ c ≤ 8202)

/-- `str.strip` -/
def strip (value : Text) : Text := ((value.dropWhile isSpace).reverse.dropWhile isSpace).reverse

/-! ### Numbers -/

/-- A binary64 value; a finite one is `mantissa * 2 ^ exponent`. The two zeros are equal in Python, and one value here. -/
inductive Double where
  | nan
  | infinity (negative : Bool)
  | finite (mantissa exponent : ℤ)
  deriving DecidableEq

namespace Double

def halfEven (num den : ℕ) : ℕ :=
  if 2 * (num % den) < den ∨ 2 * (num % den) = den ∧ num / den % 2 = 0 then num / den else num / den + 1

/-- The binary64 value nearest to `digits * 10 ^ exponent`, ties to even. -/
def ofDecimal (negative : Bool) (digits : ℕ) (exponent : ℤ) : Double :=
  if digits = 0 then .finite 0 0
  else
    let num := digits * 10 ^ exponent.toNat
    let den := 10 ^ (-exponent).toNat
    let scaled (e : ℤ) : ℕ × ℕ := (num * 2 ^ (-e).toNat, den * 2 ^ e.toNat)
    let k : ℤ := num.log2 - den.log2
    let k := if (scaled k).1 < (scaled k).2 then k - 1 else k
    let e := max (k - 52) (-1074)
    let m := halfEven (scaled e).1 (scaled e).2
    if 2 ^ 1024 ≤ m * 2 ^ e.toNat ∧ 0 ≤ e then .infinity negative
    else .finite (if negative then -m else m) e

/-- `value == n`. -/
def eqInt : Double → ℤ → Bool
  | .finite m e, n => m * 2 ^ e.toNat = n * 2 ^ (-e).toNat
  | _, _ => false

end Double

/-- The three constants beyond the JSON grammar. -/
inductive Constant where
  | nan
  | infinity
  | negativeInfinity
  deriving DecidableEq

inductive Value where
  | null
  | bool (b : Bool)
  | int (n : ℤ)
  | float (x : Double)
  | str (s : Text)
  | list (items : List Value)
  | dict (fields : List (Text × Value))

inductive Error where
  | decode
  | recursion
  | digits
  | constant (c : Constant)
  deriving DecidableEq

/-- The nesting the interpreter still allows, and the longest integer literal it converts. -/
structure Limits where
  depth : ℕ
  digits : ℕ

/-- `parse_constant`; `none` where the callback raises. -/
abbrev ParseConstant := Constant → Option Value

def defaultConstant : ParseConstant
  | .nan => some (.float .nan)
  | .infinity => some (.float (.infinity false))
  | .negativeInfinity => some (.float (.infinity true))

/-- Refuse the three constants. -/
def noConstant : ParseConstant := fun _ => none

/-! ### Scanners: what was read, and the text after it -/

def isWhitespace (c : ℕ) : Bool := c = 32 ∨ c = 9 ∨ c = 10 ∨ c = 13

def skipWhitespace (t : Text) : Text := t.dropWhile isWhitespace

def isDigit (c : ℕ) : Bool := 48 ≤ c ∧ c ≤ 57

def digitsValue (t : Text) : ℕ := t.foldl (fun n c => 10 * n + (c - 48)) 0

def hexDigit (c : ℕ) : Option ℕ :=
  if isDigit c then some (c - 48)
  else if 65 ≤ c ∧ c ≤ 70 then some (c - 55)
  else if 97 ≤ c ∧ c ≤ 102 then some (c - 87)
  else none

def hexEscape (a b c d : ℕ) : Option ℕ := do
  let a ← hexDigit a
  let b ← hexDigit b
  let c ← hexDigit c
  let d ← hexDigit d
  return ((a * 16 + b) * 16 + c) * 16 + d

def isHighSurrogate (c : ℕ) : Bool := 0xD800 ≤ c ∧ c ≤ 0xDBFF

def isLowSurrogate (c : ℕ) : Bool := 0xDC00 ≤ c ∧ c ≤ 0xDFFF

def joinSurrogates (high low : ℕ) : ℕ := 0x10000 + (high - 0xD800) * 0x400 + (low - 0xDC00)

/-- The character a short escape stands for. -/
def shortEscape : ℕ → Option ℕ
  | 34 => some 34
  | 92 => some 92
  | 47 => some 47
  | 98 => some 8
  | 102 => some 12
  | 110 => some 10
  | 114 => some 13
  | 116 => some 9
  | _ => none

def prepend (c : ℕ) : Except Error (Text × Text) → Except Error (Text × Text)
  | .ok (s, rest) => .ok (c :: s, rest)
  | .error e => .error e

/-- The rest of a string, after its opening quote. -/
def scanString : Text → Except Error (Text × Text)
  | [] => .error .decode
  | 34 :: rest => .ok ([], rest)
  | 92 :: 117 :: a :: b :: c :: d :: rest =>
    match hexEscape a b c d with
    | none => .error .decode
    | some high =>
      match isHighSurrogate high, rest with
      | true, 92 :: 117 :: e :: f :: g :: h :: rest' =>
        match hexEscape e f g h with
        | none => .error .decode
        | some low =>
          if isLowSurrogate low then prepend (joinSurrogates high low) (scanString rest')
          else prepend high (scanString (92 :: 117 :: e :: f :: g :: h :: rest'))
      | _, rest => prepend high (scanString rest)
  | 92 :: c :: rest =>
    match shortEscape c with
    | some c => prepend c (scanString rest)
    | none => .error .decode
  | c :: rest => if c < 32 ∨ c = 92 then .error .decode else prepend c (scanString rest)

/-- Digits after a separator that the number keeps only when there are any. -/
def scanFraction : Text → Text × Text
  | 46 :: rest =>
    if rest.takeWhile isDigit = [] then ([], 46 :: rest) else (rest.takeWhile isDigit, rest.dropWhile isDigit)
  | t => ([], t)

def scanExponent : Text → Option ℤ × Text
  | c :: rest =>
    if c = 101 ∨ c = 69 then
      let (negative, digits) : Bool × Text := match rest with
        | 45 :: digits => (true, digits)
        | 43 :: digits => (false, digits)
        | _ => (false, rest)
      if digits.takeWhile isDigit = [] then (none, c :: rest)
      else
        let n : ℤ := digitsValue (digits.takeWhile isDigit)
        (some (if negative then -n else n), digits.dropWhile isDigit)
    else (none, c :: rest)
  | [] => (none, [])

/-- The digits before a fraction; none follows a leading zero. -/
def scanWhole : Text → Text × Text
  | 48 :: rest => ([48], rest)
  | t => (t.takeWhile isDigit, t.dropWhile isDigit)

/-- An unsigned number. -/
def scanMagnitude (limits : Limits) (negative : Bool) (t : Text) : Except Error (Value × Text) :=
  let (whole, rest) := scanWhole t
  if whole = [] then .error .decode
  else
    let (fraction, rest) := scanFraction rest
    let (exponent, rest) := scanExponent rest
    if fraction = [] ∧ exponent = none then
      if limits.digits < whole.length then .error .digits
      else .ok (.int (if negative then -(digitsValue whole : ℤ) else digitsValue whole), rest)
    else
      let shift : ℤ := exponent.getD 0 - fraction.length
      .ok (.float (Double.ofDecimal negative (digitsValue (whole ++ fraction)) shift), rest)

def scanNumber (limits : Limits) : Text → Except Error (Value × Text)
  | 45 :: rest => scanMagnitude limits true rest
  | t => scanMagnitude limits false t

def scanConstant (parseConstant : ParseConstant) (c : Constant) (rest : Text) : Except Error (Value × Text) :=
  match parseConstant c with
  | some v => .ok (v, rest)
  | none => .error (.constant c)

/-- A literal or a number. -/
def scanScalar (limits : Limits) (parseConstant : ParseConstant) (t : Text) : Except Error (Value × Text) :=
  match (text "null").isPrefixOf t, (text "true").isPrefixOf t, (text "false").isPrefixOf t,
      (text "NaN").isPrefixOf t, (text "Infinity").isPrefixOf t, (text "-Infinity").isPrefixOf t with
  | true, _, _, _, _, _ => .ok (.null, t.drop 4)
  | _, true, _, _, _, _ => .ok (.bool true, t.drop 4)
  | _, _, true, _, _, _ => .ok (.bool false, t.drop 5)
  | _, _, _, true, _, _ => scanConstant parseConstant .nan (t.drop 3)
  | _, _, _, _, true, _ => scanConstant parseConstant .infinity (t.drop 8)
  | _, _, _, _, _, true => scanConstant parseConstant .negativeInfinity (t.drop 9)
  | _, _, _, _, _, _ => scanNumber limits t

/-- The items of an array, up to its bracket; `fuel` bounds their number. -/
def scanItems (element : Text → Except Error (Value × Text)) : ℕ → Text → Except Error (List Value × Text)
  | 0, _ => .error .decode
  | fuel + 1, t => do
    let (v, rest) ← element t
    match skipWhitespace rest with
    | 93 :: rest => return ([v], rest)
    | 44 :: rest =>
      let (vs, rest) ← scanItems element fuel (skipWhitespace rest)
      return (v :: vs, rest)
    | _ => .error .decode

def scanArray (element : Text → Except Error (Value × Text)) (t : Text) : Except Error (Value × Text) :=
  match skipWhitespace t with
  | 93 :: rest => .ok (.list [], rest)
  | t => do
    let (items, rest) ← scanItems element t.length t
    return (.list items, rest)

/-- A later value takes the place of an earlier one with its key. -/
def setField (fields : List (Text × Value)) (key : Text) (v : Value) : List (Text × Value) :=
  if fields.any fun f => f.1 = key then fields.map fun f => if f.1 = key then (key, v) else f
  else fields ++ [(key, v)]

/-- The members of an object, up to its brace, added to those before them. -/
def scanMembers (element : Text → Except Error (Value × Text)) :
    ℕ → List (Text × Value) → Text → Except Error (List (Text × Value) × Text)
  | 0, _, _ => .error .decode
  | fuel + 1, fields, t =>
    match t with
    | 34 :: t => do
      let (key, rest) ← scanString t
      match skipWhitespace rest with
      | 58 :: rest =>
        let (v, rest) ← element (skipWhitespace rest)
        match skipWhitespace rest with
        | 125 :: rest => return (setField fields key v, rest)
        | 44 :: rest => scanMembers element fuel (setField fields key v) (skipWhitespace rest)
        | _ => .error .decode
      | _ => .error .decode
    | _ => .error .decode

def scanObject (element : Text → Except Error (Value × Text)) (t : Text) : Except Error (Value × Text) :=
  match skipWhitespace t with
  | 125 :: rest => .ok (.dict [], rest)
  | t => do
    let (fields, rest) ← scanMembers element t.length [] t
    return (.dict fields, rest)

/-- One value; `nested` reads the values inside a container, where one more level is allowed. -/
def scanValue (limits : Limits) (parseConstant : ParseConstant) (nested : Option (Text → Except Error (Value × Text))) :
    Text → Except Error (Value × Text)
  | 34 :: rest => do
    let (s, rest) ← scanString rest
    return (.str s, rest)
  | 123 :: rest =>
    match nested with
    | some element => scanObject element rest
    | none => .error .recursion
  | 91 :: rest =>
    match nested with
    | some element => scanArray element rest
    | none => .error .recursion
  | t => scanScalar limits parseConstant t

/-- `scan_once` with the given number of levels left. -/
def scanOnce (limits : Limits) (parseConstant : ParseConstant) : ℕ → Text → Except Error (Value × Text)
  | 0 => scanValue limits parseConstant none
  | depth + 1 => scanValue limits parseConstant (some (scanOnce limits parseConstant depth))

def loads (limits : Limits) (parseConstant : ParseConstant) (t : Text) : Except Error Value :=
  if t.head? = some 0xFEFF then .error .decode
  else do
    let (v, rest) ← scanOnce limits parseConstant limits.depth (skipWhitespace t)
    if skipWhitespace rest = [] then return v else .error .decode

/-! ### Refused constants -/

/-- `x` is the result `y`, or a refused constant; `y` refuses none. -/
structure Restricts {α : Type} (x y : Except Error α) : Prop where
  agree : x = y ∨ ∃ c, x = .error (.constant c)
  total : ∀ c, y ≠ .error (.constant c)

namespace Restricts

variable {α β : Type} {x y : Except Error α}

theorem ok (a : α) : Restricts (.ok a) (.ok a) := ⟨.inl rfl, by simp⟩

theorem error {e : Error} (he : ∀ c, e ≠ .constant c) : Restricts (α := α) (.error e) (.error e) :=
  ⟨.inl rfl, by simpa using he⟩

theorem decode : Restricts (α := α) (.error .decode) (.error .decode) := error (by simp)

theorem refl (h : ∀ c, x ≠ .error (.constant c)) : Restricts x x := ⟨.inl rfl, h⟩

theorem bind {f g : α → Except Error β} (h : Restricts x y) (hf : ∀ a, Restricts (f a) (g a)) :
    Restricts (x >>= f) (y >>= g) := by
  obtain ⟨hagree, htotal⟩ := h
  cases y with
  | error e =>
    have hne : ∀ c, (Except.error e >>= g : Except Error β) ≠ .error (.constant c) := by
      intro c hc
      exact htotal c (congrArg Except.error (Except.error.inj hc))
    refine ⟨?_, hne⟩
    rcases hagree with rfl | ⟨c, rfl⟩
    · exact .inl rfl
    · exact .inr ⟨c, rfl⟩
  | ok a =>
    refine ⟨?_, (hf a).total⟩
    rcases hagree with rfl | ⟨c, rfl⟩
    · exact (hf a).agree
    · exact .inr ⟨c, rfl⟩

end Restricts

section

variable {limits : Limits} {f g : Text → Except Error (Value × Text)}

theorem scanString_ne_constant (t : Text) (c : Constant) : scanString t ≠ .error (.constant c) := by
  have hprepend : ∀ (a : ℕ) (x : Except Error (Text × Text)), x ≠ .error (.constant c) →
      prepend a x ≠ .error (.constant c) := by
    intro a x hx
    cases x with
    | ok r => simp [prepend]
    | error e => exact hx
  fun_induction scanString t <;> grind

theorem scanMagnitude_ne_constant (negative : Bool) (t : Text) (c : Constant) :
    scanMagnitude limits negative t ≠ .error (.constant c) := by
  unfold scanMagnitude
  grind

theorem scanItems_restricts (h : ∀ t, Restricts (f t) (g t)) (fuel : ℕ) (t : Text) :
    Restricts (scanItems f fuel t) (scanItems g fuel t) := by
  induction fuel generalizing t with
  | zero => exact .decode
  | succ fuel ih =>
    unfold scanItems
    refine (h t).bind fun ⟨v, rest⟩ => ?_
    dsimp only
    split
    · exact .ok _
    · exact (ih _).bind fun _ => .ok _
    · exact .decode

theorem scanMembers_restricts (h : ∀ t, Restricts (f t) (g t)) (fuel : ℕ) (fields : List (Text × Value)) (t : Text) :
    Restricts (scanMembers f fuel fields t) (scanMembers g fuel fields t) := by
  induction fuel generalizing fields t with
  | zero =>
    unfold scanMembers
    exact .decode
  | succ fuel ih =>
    unfold scanMembers
    split
    · refine (Restricts.refl (scanString_ne_constant _)).bind fun ⟨key, rest⟩ => ?_
      dsimp only
      split
      · refine (h _).bind fun ⟨v, rest⟩ => ?_
        dsimp only
        split
        · exact .ok _
        · exact ih _ _
        · exact .decode
      · exact .decode
    · exact .decode

theorem scanArray_restricts (h : ∀ t, Restricts (f t) (g t)) (t : Text) : Restricts (scanArray f t) (scanArray g t) := by
  unfold scanArray
  split
  · exact .ok _
  · exact (scanItems_restricts h _ _).bind fun _ => .ok _

theorem scanObject_restricts (h : ∀ t, Restricts (f t) (g t)) (t : Text) :
    Restricts (scanObject f t) (scanObject g t) := by
  unfold scanObject
  split
  · exact .ok _
  · exact (scanMembers_restricts h _ _ _).bind fun _ => .ok _

theorem scanScalar_restricts (t : Text) :
    Restricts (scanScalar limits noConstant t) (scanScalar limits defaultConstant t) := by
  have hconstant : ∀ c rest, Restricts (scanConstant noConstant c rest) (scanConstant defaultConstant c rest) :=
    fun c rest => ⟨.inr ⟨c, rfl⟩, by cases c <;> simp [scanConstant, defaultConstant]⟩
  unfold scanScalar
  split
  · exact .ok _
  · exact .ok _
  · exact .ok _
  · exact hconstant _ _
  · exact hconstant _ _
  · exact hconstant _ _
  · refine .refl fun c => ?_
    unfold scanNumber
    split <;> exact scanMagnitude_ne_constant _ _ c

theorem scanValue_restricts {nested nested' : Option (Text → Except Error (Value × Text))}
    (h : nested = none ∧ nested' = none ∨ ∃ f g, nested = some f ∧ nested' = some g ∧ ∀ t, Restricts (f t) (g t))
    (t : Text) : Restricts (scanValue limits noConstant nested t) (scanValue limits defaultConstant nested' t) := by
  unfold scanValue
  split
  · exact (Restricts.refl (scanString_ne_constant _)).bind fun _ => .ok _
  · rcases h with ⟨rfl, rfl⟩ | ⟨f, g, rfl, rfl, h⟩
    · exact .error (by simp)
    · exact scanObject_restricts h _
  · rcases h with ⟨rfl, rfl⟩ | ⟨f, g, rfl, rfl, h⟩
    · exact .error (by simp)
    · exact scanArray_restricts h _
  · exact scanScalar_restricts _

theorem scanOnce_restricts (depth : ℕ) (t : Text) :
    Restricts (scanOnce limits noConstant depth t) (scanOnce limits defaultConstant depth t) := by
  induction depth generalizing t with
  | zero => exact scanValue_restricts (.inl ⟨rfl, rfl⟩) t
  | succ depth ih => exact scanValue_restricts (.inr ⟨_, _, rfl, rfl, ih⟩) t

/-- A reader without the constants refuses one, or reads what the default reader reads. -/
theorem loads_restricts (t : Text) : Restricts (loads limits noConstant t) (loads limits defaultConstant t) := by
  unfold loads
  split
  · exact .decode
  · refine (scanOnce_restricts _ _).bind fun ⟨v, rest⟩ => ?_
    dsimp only
    split
    · exact .ok _
    · exact .decode

end

/-! ### Bytes -/

/-- `str.encode()` of a text without surrogates. -/
def encodeUtf8 (t : Text) : List UInt8 :=
  t.flatMap fun c =>
    if c < 0x80 then [.ofNat c]
    else if c < 0x800 then [.ofNat (0xC0 + c / 64), .ofNat (0x80 + c % 64)]
    else if c < 0x10000 then [.ofNat (0xE0 + c / 4096), .ofNat (0x80 + c / 64 % 64), .ofNat (0x80 + c % 64)]
    else [.ofNat (0xF0 + c / 262144), .ofNat (0x80 + c / 4096 % 64), .ofNat (0x80 + c / 64 % 64), .ofNat (0x80 + c % 64)]

def isTail (b : UInt8) : Bool := 0x80 ≤ b ∧ b ≤ 0xBF

/-- The low six bits of a continuation byte. -/
def tailBits (b : UInt8) : ℕ := b.toNat % 64

/-- `bytes.decode("utf-8")`. -/
def decodeUtf8 : List UInt8 → Option Text
  | [] => some []
  | a :: rest =>
    if a < 0x80 then (decodeUtf8 rest).map (a.toNat :: ·)
    else
      match rest with
      | b :: rest =>
        if 0xC2 ≤ a ∧ a ≤ 0xDF ∧ isTail b then (decodeUtf8 rest).map ((a.toNat % 32 * 64 + tailBits b) :: ·)
        else
          match rest with
          | c :: rest =>
            if isTail b ∧ isTail c ∧ (a = 0xE0 ∧ 0xA0 ≤ b ∨ 0xE1 ≤ a ∧ a ≤ 0xEC ∨ a = 0xED ∧ b ≤ 0x9F ∨
                0xEE ≤ a ∧ a ≤ 0xEF) then
              (decodeUtf8 rest).map (((a.toNat % 16 * 64 + tailBits b) * 64 + tailBits c) :: ·)
            else
              match rest with
              | d :: rest =>
                if isTail b ∧ isTail c ∧ isTail d ∧ (a = 0xF0 ∧ 0x90 ≤ b ∨ 0xF1 ≤ a ∧ a ≤ 0xF3 ∨
                    a = 0xF4 ∧ b ≤ 0x8F) then
                  (decodeUtf8 rest).map
                    ((((a.toNat % 8 * 64 + tailBits b) * 64 + tailBits c) * 64 + tailBits d) :: ·)
                else none
              | [] => none
          | [] => none
      | [] => none

end FireDash.Json
