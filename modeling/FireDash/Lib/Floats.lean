import FireDash.Lib.Numerals

/-! Texts and integers that Python reads as floats, and floats as integers. -/
namespace FireDash.Floats

open Json (Double Text digitsValue isDigit)
open Numerals (isPad)

/-- Underscores between digits are dropped, others are refused; the flag is whether a digit stands before the text. -/
def dropUnderscores : Bool → Text → Option Text
  | _, [] => some []
  | digit, 95 :: c :: rest =>
    if digit = true ∧ isDigit c = true then (dropUnderscores true rest).map (c :: ·) else none
  | _, [95] => none
  | _, c :: rest => (dropUnderscores (isDigit c) rest).map (c :: ·)

/-- The digits behind the `e`, with their sign. -/
def readExponent : Text → Option ℤ
  | [] => some 0
  | c :: rest =>
    if c = 101 ∨ c = 69 then
      let digits := if rest.head? = some 43 ∨ rest.head? = some 45 then rest.tail else rest
      if digits ≠ [] ∧ digits.all isDigit = true then
        some (if rest.head? = some 45 then -(digitsValue digits : ℤ) else (digitsValue digits : ℤ))
      else none
    else none

def lowerAscii (c : ℕ) : ℕ := if 65 ≤ c ∧ c ≤ 90 then c + 32 else c

/-- A number without its sign. -/
def readUnsigned (negative : Bool) (t : Text) : Option Double :=
  let word := t.map lowerAscii
  if word = Json.text "inf" ∨ word = Json.text "infinity" then some (.infinity negative)
  else if word = Json.text "nan" then some .nan
  else
    let whole := t.takeWhile isDigit
    let rest := t.dropWhile isDigit
    let fraction := if rest.head? = some 46 then rest.tail.takeWhile isDigit else []
    let rest := if rest.head? = some 46 then rest.tail.dropWhile isDigit else rest
    if whole = [] ∧ fraction = [] then none
    else (readExponent rest).map fun exponent => Double.ofDecimal negative (digitsValue (whole ++ fraction)) (exponent - fraction.length)

/-- `float(text)`; `none` where it raises. `decimal` gives the value of a decimal digit beyond ASCII. -/
def readFloat (decimal : ℕ → Option ℕ) (t : Text) : Option Double := do
  let body := ((t.dropWhile isPad).reverse.dropWhile isPad).reverse
  let ascii ← body.mapM fun c => if c < 127 then some c else (decimal c).map (48 + ·)
  let plain ← dropUnderscores false ascii
  match plain with
  | 43 :: rest => readUnsigned false rest
  | 45 :: rest => readUnsigned true rest
  | rest => readUnsigned false rest

/-- `float(n)`; `none` where it overflows. -/
def ofInt (n : ℤ) : Option Double :=
  match Double.ofDecimal (n < 0) n.natAbs 0 with
  | .infinity _ => none
  | x => some x

/-- `int(x)` of a finite float, which drops its fraction. -/
def truncate (mantissa exponent : ℤ) : ℤ := (mantissa * 2 ^ exponent.toNat).tdiv (2 ^ (-exponent).toNat)

/-- `math.isfinite(x) and lower <= x <= upper`. -/
def between (lower upper : ℤ) : Double → Bool
  | .finite m e => lower * 2 ^ (-e).toNat ≤ m * 2 ^ e.toNat ∧ m * 2 ^ e.toNat ≤ upper * 2 ^ (-e).toNat
  | _ => false

end FireDash.Floats
