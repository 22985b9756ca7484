/-!
# Doubles, by their bits

A **double** is a 64-bit word: a sign bit, eleven bits of exponent and 52 bits of fraction. No
floating-point operation of the machine is used. A non-negative ratio is rounded to a double in
exact natural-number arithmetic, measured in units of `2 ^ -1074`, the least positive double: read
as natural numbers, the words of the non-negative doubles are in the order of their values, and
within one binade they count its steps.

* `Double.ofRatio` is the double nearest to a ratio, the even one of two.
* `Double.isNegative`, `Double.magnitude`, `Double.isInfinite` take a double apart.
-/

namespace Inlay

/-- **A double**, in the binary64 format. -/
structure Double where
  bits : BitVec 64
deriving DecidableEq, Repr, Inhabited

namespace Double

/-- Positive zero. -/
def zero : Double := ⟨0⟩

/-- One. -/
def one : Double := ⟨0x3FF0000000000000⟩

/-- Positive infinity. -/
def infinity : Double := ⟨0x7FF0000000000000⟩

/-- The sign bit is set (also that of a zero). -/
def isNegative (d : Double) : Bool := d.bits.msb

/-- The same double with the sign bit cleared. -/
def magnitude (d : Double) : Double := ⟨d.bits &&& 0x7FFFFFFFFFFFFFFF⟩

/-- The same double with the sign bit set. -/
def negate (d : Double) : Double := ⟨d.bits ||| 0x8000000000000000⟩

/-- One of the two infinities. -/
def isInfinite (d : Double) : Bool := d.magnitude == infinity

/-- **The nearest natural number** to `num / den`; half-way between two, the even one. -/
def divNearest (num den : Nat) : Nat :=
  let q := num / den
  let twice := 2 * (num % den)
  if twice < den then q
  else if den < twice then q + 1
  else q + q % 2

/-- **The double nearest to `num / den`**, ties to even, for `den ≠ 0`. In units of `2 ^ -1074` the
    ratio is `units / den`; a step of its binade is `2 ^ shift` units, so that 53 significant bits
    remain, and the word is `shift` whole binades and the number of steps. Past the largest double
    it is infinity. -/
def ofRatio (num den : Nat) : Double :=
  let units := num <<< 1074
  let shift := (units / den).log2 - 52
  let steps := divNearest units (den <<< shift)
  ⟨BitVec.ofNat 64 (min ((shift <<< 52) + steps) infinity.bits.toNat)⟩

/-- The double nearest to `coefficient * 10 ^ scale`. -/
def ofDecimal (coefficient : Nat) (scale : Int) : Double :=
  match scale with
  | .ofNat k => ofRatio (coefficient * Nat.pow 10 k) 1
  | .negSucc k => ofRatio coefficient (Nat.pow 10 (k + 1))

end Double

end Inlay
