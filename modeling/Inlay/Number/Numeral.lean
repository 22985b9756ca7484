import Inlay.Number.Double

/-!
# Numerals

A **numeral** is a decimal number as it is written: sign, digits before and after the point, and the
exponent with its own mark, sign and digits. Two numerals of the same value are different when they
are written differently, so a document keeps `1.50`, `15e-1` and `1.5` apart.

* `Numeral.text` writes a numeral.
* `Numeral.toDouble` is the double nearest to its value, with its sign.
-/

namespace Inlay

/-- A decimal digit. -/
abbrev Digit := Fin 10

namespace Digit

/-- The digit that a character stands for. -/
def ofChar? (c : Char) : Option Digit :=
  if h : '0'.toNat ≤ c.toNat ∧ c.toNat ≤ '9'.toNat then
    some ⟨c.toNat - '0'.toNat, by have := h.2; simp at this ⊢; omega⟩
  else none

/-- The character of a digit. -/
def char (d : Digit) : Char := Char.ofNat ('0'.toNat + d.val)

/-- The natural number that a row of digits denotes. -/
def value (ds : List Digit) : Nat := ds.foldl (fun n d => 10 * n + d.val) 0

end Digit

/-- The sign that an exponent may carry. -/
inductive ExponentSign where
  | unsigned | plus | minus
deriving DecidableEq, Repr

/-- An exponent: its mark is `E` or `e`, then a sign and digits. -/
structure Exponent where
  capital : Bool
  sign : ExponentSign
  digits : List Digit
deriving DecidableEq, Repr

namespace Exponent

/-- The exponent as a number. -/
def value (e : Exponent) : Int :=
  match e.sign with
  | .minus => -(Digit.value e.digits : Int)
  | .unsigned | .plus => Digit.value e.digits

/-- The exponent as it is written. -/
def text (e : Exponent) : List Char :=
  (if e.capital then 'E' else 'e') ::
    (match e.sign with
      | .unsigned => []
      | .plus => ['+']
      | .minus => ['-']) ++ e.digits.map Digit.char

end Exponent

/-- **A numeral**: `fraction` is absent when there is no point. -/
structure Numeral where
  negative : Bool
  whole : List Digit
  fraction : Option (List Digit)
  exponent : Option Exponent
deriving DecidableEq, Repr

namespace Numeral

/-- Neither a point nor an exponent. -/
def isInteger (n : Numeral) : Bool := n.fraction.isNone && n.exponent.isNone

/-- **The numeral as it is written.** -/
def text (n : Numeral) : String :=
  String.ofList <|
    (if n.negative then ['-'] else []) ++ n.whole.map Digit.char
      ++ (match n.fraction with
          | some ds => '.' :: ds.map Digit.char
          | none => [])
      ++ (match n.exponent with
          | some e => e.text
          | none => [])

/-- The integer that an integer numeral denotes. -/
def toInt (n : Numeral) : Int :=
  if n.negative then -(Digit.value n.whole : Int) else Digit.value n.whole

/-- An integer numeral in the range of 64-bit words: unsigned ones, or signed ones behind a minus.
    -/
def isWord (n : Numeral) : Bool :=
  n.isInteger &&
    (if n.negative then Digit.value n.whole ≤ 0x8000000000000000
     else Digit.value n.whole ≤ 0xFFFFFFFFFFFFFFFF)

/-- **The stored form.** An integer in the range of words is stored by its value, which has no
    negative zero; it is written without superfluous zeros already, so nothing else changes. -/
def stored (n : Numeral) : Numeral :=
  if n.isWord then ⟨n.negative && Digit.value n.whole != 0, n.whole, none, none⟩ else n

/-! ## Value -/

/-- All digits, as if there were no point. -/
def digits (n : Numeral) : List Digit := n.whole ++ n.fraction.getD []

/-- The power of ten that the digits are to be multiplied by. -/
def scale (n : Numeral) : Int :=
  (n.exponent.map Exponent.value).getD 0 - (n.fraction.getD []).length

/-- **The nearest double to the magnitude.** With `k` digits after leading zeros the value lies in
    `[10 ^ (k - 1 + scale), 10 ^ (k + scale))`. From `10 ^ 309` on everything is infinite, and below
    `10 ^ -324` everything is zero; only in between is the power of ten computed. -/
def toMagnitude (n : Numeral) : Double :=
  let significant := (n.digits.dropWhile (· == 0)).length
  if significant == 0 then Double.zero
  else if 310 ≤ significant + n.scale then Double.infinity
  else if significant + n.scale ≤ -324 then Double.zero
  else Double.ofDecimal (Digit.value n.digits) n.scale

/-- **The nearest double**, carrying the sign of the numeral even when it is zero. -/
def toDouble (n : Numeral) : Double :=
  if n.negative then n.toMagnitude.negate else n.toMagnitude

end Numeral

end Inlay
