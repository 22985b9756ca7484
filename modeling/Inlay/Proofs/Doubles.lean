import Inlay.Number.Numeral

/-!
# Arithmetic of doubles

The operations on doubles that expressions use, and the words of magnitudes: a **magnitude** is a
double without sign, finite or infinite. The nearest double to a numeral is made of one, so it is
always a number, and taking the sign off and putting it on again gives it back.

* `Double.opposite`, `Double.quotient`: the sign change and the quotient.
* `IsMagnitude`: a word that is at most that of infinity.
* `isMagnitude_toMagnitude`: what a numeral comes to before its sign is put on.
* `magnitude_toDouble`, `isNegative_toDouble`: its two parts can be told apart again.
-/

namespace Inlay

namespace Double

/-! ## Operations -/

/-- A double that is not a number: its exponent is that of infinity, its fraction is not zero. -/
def isNaN (d : Double) : Bool := infinity.bits.toNat < d.magnitude.bits.toNat

/-- Some double that is not a number. -/
def nan : Double := ⟨0x7FF8000000000000⟩

/-- A double that is neither infinite nor not a number. -/
def isFinite (d : Double) : Bool := d.magnitude.bits.toNat < infinity.bits.toNat

/-- The magnitude of a finite double in units of `2 ^ -1074`. -/
def units (d : Double) : Nat :=
  let exponent := d.magnitude.bits.toNat >>> 52
  let fraction := d.magnitude.bits.toNat % 0x10000000000000
  if exponent = 0 then fraction else (0x10000000000000 + fraction) <<< (exponent - 1)

/-- **The same double with the other sign.** -/
def opposite (d : Double) : Double := if d.isNegative then d.magnitude else d.negate

/-- The quotient of two magnitudes. -/
def ratio (a b : Double) : Double :=
  if a.isNaN || b.isNaN then nan
  else if a.isInfinite then if b.isInfinite then nan else infinity
  else if b.isInfinite then zero
  else if b.units = 0 then if a.units = 0 then nan else infinity
  else ofRatio a.units b.units

/-- **The quotient of two doubles.** -/
def quotient (a b : Double) : Double :=
  if a.isNegative == b.isNegative then ratio a b else (ratio a b).negate

/-- The quotient that stands for infinity. -/
theorem quotient_one_zero : quotient one zero = infinity := by decide

/-! ## Magnitudes -/

/-- **A magnitude**: a double without sign that is a number. -/
def IsMagnitude (d : Double) : Prop := d.bits.toNat ≤ infinity.bits.toNat

theorem toNat_infinity : infinity.bits.toNat = 0x7FF0000000000000 := rfl

/-- A magnitude has no sign. -/
theorem IsMagnitude.isNegative {d : Double} (h : d.IsMagnitude) : d.isNegative = false := by
  rw [IsMagnitude, toNat_infinity] at h
  rw [Double.isNegative, BitVec.msb_eq_decide, decide_eq_false_iff_not]
  omega

/-- The magnitude of a magnitude is itself. -/
theorem IsMagnitude.magnitude {d : Double} (h : d.IsMagnitude) : d.magnitude = d := by
  rw [IsMagnitude, toNat_infinity] at h
  have hbits : d.bits &&& 0x7FFFFFFFFFFFFFFF = d.bits := by
    apply BitVec.eq_of_toNat_eq
    rw [BitVec.toNat_and]
    -- the mask keeps the low 63 bits
    show d.bits.toNat &&& (2 ^ 63 - 1) = _
    rw [Nat.and_two_pow_sub_one_eq_mod, Nat.mod_eq_of_lt (by omega)]
  rw [Double.magnitude, hbits]

/-- A magnitude that is not infinite is finite. -/
theorem IsMagnitude.isFinite {d : Double} (h : d.IsMagnitude) (hne : d ≠ infinity) :
    d.isFinite = true := by
  have hbits : d.bits.toNat ≠ infinity.bits.toNat := by
    intro heq
    exact hne (congrArg Double.mk (BitVec.eq_of_toNat_eq heq))
  rw [Double.isFinite, h.magnitude, decide_eq_true_eq]
  exact Nat.lt_of_le_of_ne h hbits

theorem isNegative_negate (d : Double) : d.negate.isNegative = true := by
  rw [Double.isNegative, negate, BitVec.msb_or]
  exact Bool.or_true _

/-- The sign does not show in the magnitude. -/
theorem magnitude_negate (d : Double) : d.negate.magnitude = d.magnitude := by
  have hbits : (d.bits ||| 0x8000000000000000) &&& 0x7FFFFFFFFFFFFFFF
      = d.bits &&& 0x7FFFFFFFFFFFFFFF := by
    rw [BitVec.and_or_distrib_right]
    -- the sign bit and the mask have no bit in common
    exact BitVec.or_zero
  rw [Double.magnitude, Double.magnitude, negate, hbits]

/-- The nearest double to a ratio is a magnitude. -/
theorem isMagnitude_ofRatio (num den : Nat) : (ofRatio num den).IsMagnitude := by
  rw [IsMagnitude, ofRatio, BitVec.toNat_ofNat]
  exact Nat.le_trans (Nat.mod_le _ _) (Nat.min_le_right _ _)

theorem isMagnitude_ofDecimal (coefficient : Nat) (scale : Int) :
    (ofDecimal coefficient scale).IsMagnitude := by
  cases scale with
  | ofNat k => exact isMagnitude_ofRatio _ _
  | negSucc k => exact isMagnitude_ofRatio _ _

end Double

/-! ## Numerals -/

namespace Numeral

open Double

/-- **What a numeral comes to before its sign is put on.** -/
theorem isMagnitude_toMagnitude (n : Numeral) : n.toMagnitude.IsMagnitude := by
  have hzero : zero.IsMagnitude := Nat.zero_le _
  have hinfinity : infinity.IsMagnitude := Nat.le_refl _
  rw [toMagnitude]
  split
  · exact hzero
  · split
    · exact hinfinity
    · split
      · exact hzero
      · exact isMagnitude_ofDecimal _ _

/-- The double of a numeral with a minus is its magnitude with the sign put on. -/
theorem toDouble_of_negative {n : Numeral} (h : n.negative = true) :
    n.toDouble = n.toMagnitude.negate := by
  rw [toDouble, if_pos h]

/-- The double of a numeral without a minus is its magnitude. -/
theorem toDouble_of_nonnegative {n : Numeral} (h : n.negative = false) :
    n.toDouble = n.toMagnitude := by
  rw [toDouble, if_neg (Bool.not_eq_true _ ▸ h)]

/-- The sign of the double is that of the numeral. -/
theorem isNegative_toDouble (n : Numeral) : n.toDouble.isNegative = n.negative := by
  cases h : n.negative with
  | true => rw [toDouble_of_negative h, isNegative_negate]
  | false => rw [toDouble_of_nonnegative h, n.isMagnitude_toMagnitude.isNegative]

/-- The magnitude of the double is what its digits come to. -/
theorem magnitude_toDouble (n : Numeral) : n.toDouble.magnitude = n.toMagnitude := by
  cases h : n.negative with
  | true => rw [toDouble_of_negative h, magnitude_negate, n.isMagnitude_toMagnitude.magnitude]
  | false => rw [toDouble_of_nonnegative h, n.isMagnitude_toMagnitude.magnitude]

/-- The double of a numeral with a minus is the opposite of its magnitude. -/
theorem opposite_toMagnitude {n : Numeral} (h : n.negative = true) :
    n.toMagnitude.opposite = n.toDouble := by
  rw [opposite, n.isMagnitude_toMagnitude.isNegative, toDouble_of_negative h]
  rfl

end Numeral

end Inlay
