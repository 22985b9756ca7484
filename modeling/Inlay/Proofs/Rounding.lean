import Inlay.Proofs.Doubles
import Mathlib.Algebra.Order.Field.Power
import Mathlib.Algebra.Order.Field.Rat
import Mathlib.Data.Nat.Log
import Mathlib.Tactic.FieldSimp
import Mathlib.Tactic.Linarith
import Mathlib.Tactic.Positivity
import Mathlib.Tactic.Ring

/-!
# Nearest doubles

The double of a ratio is **correctly rounded**: no finite double is closer to the ratio, of two
equally close ones it is the one with the even word, and it is infinite from half a step above the
largest finite double on. Everything is compared in units of `2 ^ -1074`, where finite doubles are
natural numbers: inside the binade of the ratio they are the multiples of its step, and below it
none comes closer than the first multiple does.

* `IsRounded q d`: the magnitude `d` is the correctly rounded value of `q`.
* `divNearest_nearest`, `divNearest_even`: the nearest natural number to a quotient.
* `units_of_word`: the value of a word that is a number of binades and a number of steps.
* `isRounded_ofRatio`: ratios; `isRounded_toMagnitude`: numerals, where the power of ten is not
  always computed.
-/

namespace Inlay

namespace Double

/-! ## Correct rounding -/

/-- The value of a finite double without its sign. -/
def absValue (d : Double) : ℚ := d.units / 2 ^ 1074

/-- **The magnitude `d` is the correctly rounded value of `q`**, for `q` that is not negative. -/
structure IsRounded (q : ℚ) (d : Double) : Prop where
  isMagnitude : d.IsMagnitude
  infinite : d = infinity ↔ 2 ^ 1024 - 2 ^ 970 ≤ q
  nearest : d ≠ infinity → ∀ e : Double, e.isFinite = true →
    |d.absValue - q| ≤ |e.absValue - q|
  even : d ≠ infinity → ∀ e : Double, e.isFinite = true → e.absValue ≠ d.absValue →
    |e.absValue - q| = |d.absValue - q| → d.bits.toNat % 2 = 0

/-! ## The nearest natural number -/

/-- The nearest number is the quotient or the next one. -/
theorem divNearest_eq (num den : Nat) :
    (divNearest num den = num / den ∧ 2 * (num % den) ≤ den) ∨
      (divNearest num den = num / den + 1 ∧ den ≤ 2 * (num % den)) := by
  simp only [divNearest]
  split
  · exact Or.inl ⟨rfl, by omega⟩
  · split
    · exact Or.inr ⟨rfl, by omega⟩
    · rcases Nat.mod_two_eq_zero_or_one (num / den) with h | h
      · exact Or.inl ⟨by omega, by omega⟩
      · exact Or.inr ⟨by omega, by omega⟩

/-- It is at most half a divisor away. -/
theorem two_mul_abs_divNearest_le (num : Nat) {den : Nat} (hden : 0 < den) :
    2 * |(divNearest num den : ℤ) * den - num| ≤ den := by
  have hdiv : (num : ℤ) = den * (num / den : ℕ) + (num % den : ℕ) := by
    exact_mod_cast (Nat.div_add_mod num den).symm
  have hmod : (num % den : ℕ) < den := Nat.mod_lt num hden
  rcases divNearest_eq num den with ⟨h, hle⟩ | ⟨h, hle⟩
  · rw [h, hdiv, show ((num / den : ℕ) : ℤ) * den - (den * (num / den : ℕ) + (num % den : ℕ))
      = -(num % den : ℕ) by ring, abs_neg, Nat.abs_cast]
    exact_mod_cast hle
  · rw [h, hdiv, show ((num / den + 1 : ℕ) : ℤ) * den - (den * (num / den : ℕ) + (num % den : ℕ))
      = den - (num % den : ℕ) by push_cast; ring, abs_of_nonneg (by omega)]
    omega

/-- At exactly half a divisor away, it is even. -/
theorem divNearest_even {num den : Nat} (hden : 0 < den)
    (h : 2 * |(divNearest num den : ℤ) * den - num| = den) : divNearest num den % 2 = 0 := by
  have hdiv : (num : ℤ) = den * (num / den : ℕ) + (num % den : ℕ) := by
    exact_mod_cast (Nat.div_add_mod num den).symm
  have hmod : num % den < den := Nat.mod_lt num hden
  -- the remainder is half the divisor, so that the rule for ties applies
  have htie : 2 * (num % den) = den := by
    rcases divNearest_eq num den with ⟨heq, hle⟩ | ⟨heq, hle⟩
    · rw [heq, hdiv, show ((num / den : ℕ) : ℤ) * den - (den * (num / den : ℕ) + (num % den : ℕ))
        = -(num % den : ℕ) by ring, abs_neg, Nat.abs_cast] at h
      exact_mod_cast h
    · rw [heq, hdiv, show ((num / den + 1 : ℕ) : ℤ) * den
        - (den * (num / den : ℕ) + (num % den : ℕ)) = den - (num % den : ℕ) by push_cast; ring,
        abs_of_nonneg (by omega)] at h
      omega
  have heq : divNearest num den = num / den + num / den % 2 := by
    simp only [divNearest]
    rw [if_neg (by omega), if_neg (by omega)]
  omega

/-- **No multiple of the divisor is closer**, and another one that is as close is half a divisor
    away. -/
theorem divNearest_nearest (num : Nat) {den : Nat} (hden : 0 < den) (m : ℤ) :
    |(divNearest num den : ℤ) * den - num| ≤ |m * den - num| ∧
      (m ≠ divNearest num den →
        |m * den - num| = |(divNearest num den : ℤ) * den - num| →
        2 * |(divNearest num den : ℤ) * den - num| = den) := by
  have hhalf := two_mul_abs_divNearest_le num hden
  by_cases hm : m = divNearest num den
  · rw [hm]
    exact ⟨le_refl _, fun hne => absurd rfl hne⟩
  · -- two different multiples are at least a divisor apart
    have hapart : (den : ℤ) ≤ |m * den - num| + |(divNearest num den : ℤ) * den - num| := by
      have hone : 1 ≤ |m - divNearest num den| := Int.one_le_abs (sub_ne_zero.mpr hm)
      calc (den : ℤ) = 1 * den := (one_mul _).symm
        _ ≤ |m - divNearest num den| * den := by
            exact mul_le_mul_of_nonneg_right hone (Int.natCast_nonneg den)
        _ = |(m * den - num) - ((divNearest num den : ℤ) * den - num)| := by
            rw [show (m * den - num : ℤ) - (divNearest num den * den - num)
              = (m - divNearest num den) * den by ring, abs_mul, Nat.abs_cast]
        _ ≤ _ := abs_sub _ _
    exact ⟨by omega, fun _ _ => by omega⟩

/-! ## Words and their values -/

/-- The value of a magnitude with the word `binades * 2 ^ 52 + steps` is `steps` steps of
    `2 ^ binades` units: the first two binades have steps of one unit, and two times `2 ^ 52` steps
    are the start of the next binade. -/
theorem units_of_word {d : Double} {binades steps : Nat} (hd : d.IsMagnitude)
    (hword : d.bits.toNat = binades * 2 ^ 52 + steps) (hsteps : steps ≤ 2 ^ 53)
    (hnormal : binades = 0 ∨ 2 ^ 52 ≤ steps) : d.units = steps * 2 ^ binades := by
  simp only [units, hd.magnitude, Nat.shiftRight_eq_div_pow, Nat.shiftLeft_eq, hword]
  by_cases hlow : steps < 2 ^ 52
  · obtain rfl : binades = 0 := by omega
    rw [if_pos (by omega)]
    omega
  · by_cases hhigh : steps < 2 ^ 53
    · have hexponent : (binades * 2 ^ 52 + steps) / 2 ^ 52 = binades + 1 := by omega
      have hfraction :
          0x10000000000000 + (binades * 2 ^ 52 + steps) % 0x10000000000000 = steps := by omega
      rw [hexponent, hfraction, if_neg (by omega)]
      rfl
    · obtain rfl : steps = 2 ^ 53 := by omega
      have hexponent : (binades * 2 ^ 52 + 2 ^ 53) / 2 ^ 52 = binades + 2 := by omega
      have hfraction : (binades * 2 ^ 52 + 2 ^ 53) % 0x10000000000000 = 0 := by omega
      rw [hexponent, hfraction, if_neg (by omega), show binades + 2 - 1 = binades + 1 from rfl,
        pow_succ]
      omega

/-- A finite double is a multiple of a step, or lies below the binade that has this step. -/
theorem units_multiple_or_below (e : Double) (binades : Nat) :
    2 ^ binades ∣ e.units ∨ e.units < 2 ^ (52 + binades) := by
  simp only [units, Nat.shiftRight_eq_div_pow, Nat.shiftLeft_eq]
  generalize e.magnitude.bits.toNat = word
  have hfraction : word % 0x10000000000000 < 2 ^ 52 := by omega
  split
  · refine Or.inr (lt_of_lt_of_le hfraction ?_)
    exact Nat.pow_le_pow_right (by omega) (by omega)
  · by_cases hle : binades ≤ word / 2 ^ 52 - 1
    · exact Or.inl (Dvd.dvd.mul_left (pow_dvd_pow 2 hle) _)
    · refine Or.inr ?_
      calc (0x10000000000000 + word % 0x10000000000000) * 2 ^ (word / 2 ^ 52 - 1)
          < 2 ^ 53 * 2 ^ (word / 2 ^ 52 - 1) :=
            Nat.mul_lt_mul_of_pos_right (by omega) (Nat.two_pow_pos _)
        _ = 2 ^ (53 + (word / 2 ^ 52 - 1)) := (pow_add 2 _ _).symm
        _ ≤ 2 ^ (52 + binades) := Nat.pow_le_pow_right (by omega) (by omega)

/-! ## Ratios -/

/-- The nearest number is not above a bound of the quotient. -/
theorem divNearest_le {num den bound : Nat} (h : num < bound * den) :
    divNearest num den ≤ bound := by
  have hlt : num / den < bound := Nat.div_lt_of_lt_mul (Nat.mul_comm bound den ▸ h)
  rcases divNearest_eq num den with ⟨heq, -⟩ | ⟨heq, -⟩ <;> omega

theorem le_divNearest {num den bound : Nat} (hden : 0 < den) (h : bound * den ≤ num) :
    bound ≤ divNearest num den := by
  have hle : bound ≤ num / den := (Nat.le_div_iff_mul_le hden).mpr h
  rcases divNearest_eq num den with ⟨heq, -⟩ | ⟨heq, -⟩ <;> omega

/-- Below an even number, the nearest one reaches it from half a divisor away on: the tie goes to
    the even number. -/
theorem divNearest_eq_even_iff {num den : Nat} (hden : 0 < den) {below : Nat}
    (hodd : below % 2 = 1) (h : num < (below + 1) * den) :
    divNearest num den = below + 1 ↔ (2 * below + 1) * den ≤ 2 * num := by
  have hdiv := Nat.div_add_mod num den
  have hmod : num % den < den := Nat.mod_lt num hden
  have hlt : num / den < below + 1 := Nat.div_lt_of_lt_mul (Nat.mul_comm _ den ▸ h)
  constructor
  · intro heq
    rcases divNearest_eq num den with ⟨hq, -⟩ | ⟨hq, hhalf⟩
    · omega
    · obtain rfl : below = num / den := by omega
      have : (2 * (num / den) + 1) * den = 2 * (den * (num / den)) + den := by ring
      omega
  · intro hle
    -- the quotient is the odd number, and the remainder at least half the divisor
    have hbelow : below ≤ num / den := by
      refine (Nat.le_div_iff_mul_le hden).mpr ?_
      have : (2 * below + 1) * den = 2 * (below * den) + den := by ring
      omega
    obtain rfl : below = num / den := by omega
    have hhalf : den ≤ 2 * (num % den) := by
      have : (2 * (num / den) + 1) * den = 2 * (den * (num / den)) + den := by ring
      omega
    simp only [divNearest]
    split <;> [omega; split <;> omega]

/-- **The word of a ratio**: some binades, the last of which ends above the ratio and starts at it
    or below, unless it is the first, and the nearest number of steps. -/
theorem exists_binade_ofRatio (num : Nat) {den : Nat} (hden : 0 < den) :
    ∃ shift, num * 2 ^ 1074 < 2 ^ 53 * (den * 2 ^ shift) ∧
      (0 < shift → 2 ^ 52 * (den * 2 ^ shift) ≤ num * 2 ^ 1074) ∧
      (ofRatio num den).bits.toNat
        = min (shift * 2 ^ 52 + divNearest (num * 2 ^ 1074) (den * 2 ^ shift)) (2047 * 2 ^ 52) := by
  have hspread : ∀ k shift : Nat, 2 ^ k * (den * 2 ^ shift) = 2 ^ (k + shift) * den := by
    intro k shift
    rw [pow_add]
    ring
  rw [ofRatio, ← Nat.shiftLeft_eq num 1074]
  generalize num <<< 1074 = units
  simp only [Nat.shiftLeft_eq, toNat_infinity, BitVec.toNat_ofNat]
  refine ⟨(units / den).log2 - 52, ?_, ?_, ?_⟩
  · rw [hspread, ← Nat.div_lt_iff_lt_mul hden]
    refine lt_of_lt_of_le Nat.lt_log2_self ?_
    exact Nat.pow_le_pow_right (by omega) (by omega)
  · intro hshift
    have hne : units / den ≠ 0 := by
      intro hzero
      rw [hzero] at hshift
      exact absurd hshift (by decide)
    rw [hspread, ← Nat.le_div_iff_mul_le hden, ← Nat.le_log2 hne]
    omega
  · refine Nat.mod_eq_of_lt ?_
    exact lt_of_le_of_lt (Nat.min_le_right _ _) (by decide)

/-- **The steps of a ratio**: no finite double is closer to it, and one that is as close makes
    them even. -/
theorem steps_nearest {units den shift : Nat} (hden : 0 < den)
    (hstart : 0 < shift → 2 ^ 52 * (den * 2 ^ shift) ≤ units) (e : Double) :
    |((divNearest units (den * 2 ^ shift) * 2 ^ shift : ℕ) : ℤ) * den - units|
        ≤ |(e.units : ℤ) * den - units| ∧
      (e.units ≠ divNearest units (den * 2 ^ shift) * 2 ^ shift →
        |(e.units : ℤ) * den - units|
          = |((divNearest units (den * 2 ^ shift) * 2 ^ shift : ℕ) : ℤ) * den - units| →
        divNearest units (den * 2 ^ shift) % 2 = 0) := by
  have hpos : 0 < den * 2 ^ shift := Nat.mul_pos hden (Nat.two_pow_pos shift)
  have hmultiple : ∀ m : Nat, ((m * 2 ^ shift : ℕ) : ℤ) * den = m * (den * 2 ^ shift : ℕ) := by
    intro m
    push_cast
    ring
  rw [hmultiple]
  rcases units_multiple_or_below e shift with ⟨m, hm⟩ | hbelow
  · -- inside the binade the doubles are the multiples of its step
    have hunits : e.units = m * 2 ^ shift := hm.trans (Nat.mul_comm _ _)
    rw [hunits, hmultiple]
    have hnearest := divNearest_nearest units hpos m
    refine ⟨hnearest.1, ?_⟩
    intro hne htie
    have hother : (m : ℤ) ≠ divNearest units (den * 2 ^ shift) := by
      intro heq
      exact hne (by rw [Int.ofNat_inj.mp heq])
    exact divNearest_even hpos (hnearest.2 hother htie)
  · rcases Nat.eq_zero_or_pos shift with hzero | hshift
    · -- in the first binade every number of units is a multiple
      subst hzero
      have hnearest := divNearest_nearest units hpos e.units
      rw [show (e.units : ℤ) * den = e.units * (den * 2 ^ 0 : ℕ) by simp]
      refine ⟨hnearest.1, ?_⟩
      intro hne htie
      have hother : (e.units : ℤ) ≠ divNearest units (den * 2 ^ 0) := by
        intro heq
        exact hne ((Int.ofNat_inj.mp heq).trans (Nat.mul_one _).symm)
      exact divNearest_even hpos (hnearest.2 hother htie)
    · -- below the binade its first double is closer
      have hfirst := (divNearest_nearest units hpos (2 ^ 52)).1
      have hcloser : |(2 : ℤ) ^ 52 * (den * 2 ^ shift : ℕ) - units|
          < |(e.units : ℤ) * den - units| := by
        have hlt : e.units * den < 2 ^ 52 * (den * 2 ^ shift) := by
          calc e.units * den < 2 ^ (52 + shift) * den := Nat.mul_lt_mul_of_pos_right hbelow hden
            _ = 2 ^ 52 * (den * 2 ^ shift) := by rw [pow_add]; ring
        have hle := hstart hshift
        zify at hlt hle
        push_cast
        rw [abs_of_nonpos (by linarith), abs_of_nonpos (by linarith)]
        linarith
      have hlt := lt_of_le_of_lt hfirst hcloser
      exact ⟨le_of_lt hlt, fun _ htie => absurd htie (ne_of_gt hlt)⟩

/-- The word of a ratio reaches the end of a binade from half a step before its end on: the tie goes
    to the even number of steps. -/
theorem reaches_end_iff {units den shift : Nat} (top : Nat) (hden : 0 < den)
    (hend : units < 2 ^ 53 * (den * 2 ^ shift))
    (hstart : 0 < shift → 2 ^ 52 * (den * 2 ^ shift) ≤ units) :
    (top + 3) * 2 ^ 52 ≤ shift * 2 ^ 52 + divNearest units (den * 2 ^ shift) ↔
      (2 ^ 54 - 1) * (den * 2 ^ top) ≤ units := by
  have hpos : 0 < den * 2 ^ shift := Nat.mul_pos hden (Nat.two_pow_pos shift)
  have hsteps := divNearest_le hend
  rcases Nat.lt_trichotomy shift (top + 1) with hlow | rfl | hhigh
  · -- a binade that ends before
    have hpow : 2 ^ shift ≤ 2 ^ top := Nat.pow_le_pow_right Nat.two_pos (by omega)
    have hstep := Nat.mul_le_mul_left den hpow
    exact iff_of_false (by omega) (by omega)
  · -- the binade itself
    have hstep : den * 2 ^ (top + 1) = 2 * (den * 2 ^ top) := by
      rw [pow_succ]
      ring
    have hodd : (2 ^ 53 - 1) % 2 = 1 := by decide
    have hreach := divNearest_eq_even_iff hpos hodd hend
    omega
  · -- a binade that starts behind
    have hpow : 2 ^ (top + 2) ≤ 2 ^ shift := Nat.pow_le_pow_right Nat.two_pos (by omega)
    have hstep := Nat.mul_le_mul_left den hpow
    rw [pow_add, ← Nat.mul_assoc] at hstep
    have hle := hstart (by omega)
    have hfloor := le_divNearest hpos hle
    exact iff_of_true (by omega) (by omega)

theorem eq_infinity_iff {d : Double} : d = infinity ↔ d.bits.toNat = 2047 * 2 ^ 52 := by
  constructor
  · rintro rfl
    exact toNat_infinity
  · intro h
    exact congrArg Double.mk (BitVec.eq_of_toNat_eq h)

/-- A threshold of 54 bits, in units of `2 ^ -m`. -/
theorem threshold_le_iff (k m num : Nat) {den : Nat} (hden : 0 < den) :
    (2 ^ (54 + k) - 2 ^ k : ℚ) ≤ num / den ↔
      (2 ^ 54 - 1) * (den * 2 ^ (k + m)) ≤ num * 2 ^ m := by
  have hden' : (0 : ℚ) < den := by exact_mod_cast hden
  have hunits : (2 ^ 54 - 1) * (den * 2 ^ (k + m)) = (2 ^ 54 - 1) * 2 ^ k * den * 2 ^ m := by
    rw [pow_add]
    ring
  have hsteps : (2 ^ (54 + k) - 2 ^ k : ℚ) * den = ((2 ^ 54 - 1) * 2 ^ k * den : ℕ) := by
    rw [pow_add]
    push_cast
    ring
  rw [hunits, Nat.mul_le_mul_right_iff (Nat.two_pow_pos m), le_div_iff₀ hden', hsteps,
    Nat.cast_le]

/-- The distance between a double and a ratio, in units. -/
theorem abs_absValue_sub (d : Double) (num : Nat) {den : Nat} (hden : 0 < den) :
    |d.absValue - num / den|
      = (|(d.units : ℤ) * den - (num * 2 ^ 1074 : ℕ)| : ℤ) / (2 ^ 1074 * den) := by
  have hunit : (0 : ℚ) < 2 ^ 1074 := by positivity
  have hden' : (0 : ℚ) < den := by exact_mod_cast hden
  rw [Int.cast_abs, Int.cast_sub, Int.cast_mul, Int.cast_natCast, Int.cast_natCast,
    Int.cast_natCast, Nat.cast_mul, Nat.cast_pow, Nat.cast_ofNat, absValue]
  generalize (2 : ℚ) ^ 1074 = unit at hunit ⊢
  rw [div_sub_div _ _ hunit.ne' hden'.ne', abs_div, abs_of_pos (mul_pos hunit hden'),
    mul_comm unit (num : ℚ)]

/-- **The double of a ratio is correctly rounded.** -/
theorem isRounded_ofRatio (num : Nat) {den : Nat} (hden : 0 < den) :
    IsRounded (num / den) (ofRatio num den) := by
  obtain ⟨shift, hend, hstart, hword⟩ := exists_binade_ofRatio num hden
  have hmagnitude := isMagnitude_ofRatio num den
  have hscale : (0 : ℚ) < 2 ^ 1074 * den := by positivity
  -- a word below that of infinity is a number of steps
  have hfinite : ofRatio num den ≠ infinity →
      (ofRatio num den).bits.toNat
          = shift * 2 ^ 52 + divNearest (num * 2 ^ 1074) (den * 2 ^ shift) ∧
        (ofRatio num den).units = divNearest (num * 2 ^ 1074) (den * 2 ^ shift) * 2 ^ shift := by
    intro hne
    have hbits : (ofRatio num den).bits.toNat
        = shift * 2 ^ 52 + divNearest (num * 2 ^ 1074) (den * 2 ^ shift) := by
      have := mt eq_infinity_iff.mpr hne
      omega
    refine ⟨hbits, units_of_word hmagnitude hbits (divNearest_le hend) ?_⟩
    rcases Nat.eq_zero_or_pos shift with hzero | hpos
    · exact Or.inl hzero
    · exact Or.inr (le_divNearest (Nat.mul_pos hden (Nat.two_pow_pos _)) (hstart hpos))
  refine ⟨hmagnitude, ?_, ?_, ?_⟩
  · rw [eq_infinity_iff, hword, min_eq_right_iff,
      reaches_end_iff (970 + 1074) hden hend hstart]
    exact (threshold_le_iff 970 1074 num hden).symm
  · intro hne e _
    rw [abs_absValue_sub _ num hden, abs_absValue_sub e num hden, (hfinite hne).2]
    refine div_le_div_of_nonneg_right ?_ hscale.le
    exact Int.cast_le.mpr (steps_nearest hden hstart e).1
  · intro hne e _ hother htie
    rw [abs_absValue_sub e num hden, abs_absValue_sub _ num hden, div_left_inj' hscale.ne',
      Int.cast_inj, (hfinite hne).2] at htie
    have heven := (steps_nearest hden hstart e).2 (fun heq => hother ?_) htie
    · rw [(hfinite hne).1]
      omega
    · rw [absValue, absValue, heq, (hfinite hne).2]

/-! ## Decimals -/

/-- The least power of ten that is infinite. -/
theorem two_pow_le_ten_pow : (2 : ℚ) ^ 1024 ≤ 10 ^ 309 := by
  have h : ((2 ^ 1024 : ℕ) : ℚ) ≤ (10 ^ 309 : ℕ) := Nat.cast_le.mpr (by decide +kernel)
  rwa [Nat.cast_pow, Nat.cast_pow, Nat.cast_ofNat, Nat.cast_ofNat] at h

/-- The greatest power of ten that is zero. -/
theorem two_mul_two_pow_lt_ten_pow : 2 * (2 : ℚ) ^ 1074 < 10 ^ 324 := by
  have h : ((2 * 2 ^ 1074 : ℕ) : ℚ) < (10 ^ 324 : ℕ) := Nat.cast_lt.mpr (by decide +kernel)
  rwa [Nat.cast_mul, Nat.cast_pow, Nat.cast_pow, Nat.cast_ofNat, Nat.cast_ofNat] at h

/-- What is at least the threshold is infinite. -/
theorem isRounded_infinity {q : ℚ} (h : 2 ^ 1024 - 2 ^ 970 ≤ q) : IsRounded q infinity :=
  ⟨Nat.le_refl _, iff_of_true rfl h, fun hne => absurd rfl hne, fun hne => absurd rfl hne⟩

/-- What is less than half the least positive double is zero. -/
theorem isRounded_zero {q : ℚ} (hq : 0 ≤ q) (h : 2 * q < 1 / 2 ^ 1074) : IsRounded q zero := by
  have hsmall : q < 2 ^ 1024 - 2 ^ 970 := by
    have hleast : (1 : ℚ) / 2 ^ 1074 ≤ 1 := by
      exact (div_le_one (by positivity)).mpr (one_le_pow₀ one_le_two)
    have hpower : (1 : ℚ) ≤ 2 ^ 970 := one_le_pow₀ one_le_two
    rw [show (1024 : ℕ) = 54 + 970 from rfl, pow_add]
    generalize (2 : ℚ) ^ 970 = power at hpower
    generalize (1 : ℚ) / 2 ^ 1074 = least at h hleast
    linarith
  have hzero : zero.absValue = 0 := by
    rw [Double.absValue, show zero.units = 0 from rfl, Nat.cast_zero, zero_div]
  have hcloser : ∀ e : Double, e.units ≠ 0 → |zero.absValue - q| < |e.absValue - q| := by
    intro e hne
    have hleast : 1 / 2 ^ 1074 ≤ e.absValue := by
      rw [Double.absValue]
      refine div_le_div_of_nonneg_right ?_ (by positivity)
      exact_mod_cast Nat.one_le_iff_ne_zero.mpr hne
    generalize (1 : ℚ) / 2 ^ 1074 = least at h hleast
    rw [hzero, zero_sub, abs_neg, abs_of_nonneg hq, abs_of_nonneg (by linarith)]
    linarith
  refine ⟨Nat.zero_le _, iff_of_false (by decide) (not_le.mpr hsmall), ?_, ?_⟩
  · intro _ e _
    by_cases hunits : e.units = 0
    · rw [Double.absValue, Double.absValue, hunits]
      exact le_refl _
    · exact le_of_lt (hcloser e hunits)
  · intro _ _ _ _ _
    rfl

theorem isRounded_ofDecimal (coefficient : Nat) (scale : Int) :
    IsRounded (coefficient * 10 ^ scale) (ofDecimal coefficient scale) := by
  cases scale with
  | ofNat k =>
      have h := isRounded_ofRatio (coefficient * 10 ^ k) Nat.one_pos
      rw [Nat.cast_mul, Nat.cast_pow, Nat.cast_ofNat, Nat.cast_one, div_one] at h
      rw [Int.ofNat_eq_natCast, zpow_natCast]
      exact h
  | negSucc k =>
      have h := isRounded_ofRatio coefficient (Nat.pow_pos (n := k + 1) (show 0 < 10 by decide))
      rw [Nat.cast_pow, Nat.cast_ofNat, div_eq_mul_inv] at h
      rw [zpow_negSucc]
      exact h

end Double

/-! ## Numerals -/

namespace Digit

/-- The digits behind the first are worth less than a power of ten. -/
theorem value_cons (d : Digit) (ds : List Digit) :
    value (d :: ds) = d.val * 10 ^ ds.length + value ds := by
  have hfrom : ∀ (ds : List Digit) (n : Nat),
      ds.foldl (fun n d => 10 * n + d.val) n = n * 10 ^ ds.length + value ds := by
    intro ds
    induction ds with
    | nil =>
        intro n
        simp [value]
    | cons d rest ih =>
        intro n
        rw [value, List.foldl_cons, List.foldl_cons, ih, ih, List.length_cons, pow_succ]
        ring
  rw [value, List.foldl_cons, hfrom]
  simp

/-- A row of digits is worth less than the power of ten of its length. -/
theorem value_lt (ds : List Digit) : value ds < 10 ^ ds.length := by
  induction ds with
  | nil => decide
  | cons d rest ih =>
      rw [value_cons, List.length_cons, pow_succ]
      have := Nat.mul_le_mul_right (10 ^ rest.length) (show d.val ≤ 9 by omega)
      omega

/-- Leading zeros are worth nothing. -/
theorem value_dropWhile_zero (ds : List Digit) :
    value (ds.dropWhile (· == 0)) = value ds := by
  induction ds with
  | nil => rfl
  | cons d rest ih =>
      rw [List.dropWhile_cons]
      split
      · next h =>
          rw [ih, value_cons, beq_iff_eq.mp h]
          simp
      · rfl

/-- Without leading zeros, a row of digits is worth at least the power of ten below its length. -/
theorem pow_le_value (ds : List Digit) (h : ds.dropWhile (· == 0) ≠ []) :
    10 ^ ((ds.dropWhile (· == 0)).length - 1) ≤ value ds := by
  rw [← value_dropWhile_zero ds]
  have hhead := List.head_dropWhile_not (· == (0 : Digit)) h
  obtain ⟨d, rest, hrow⟩ := List.exists_cons_of_ne_nil h
  simp only [hrow, List.head_cons, beq_eq_false_iff_ne] at hhead
  rw [hrow, value_cons, List.length_cons, Nat.add_sub_cancel]
  have hone : 1 ≤ d.val := Nat.one_le_iff_ne_zero.mpr (fun h => hhead (Fin.ext h))
  exact Nat.le_add_right_of_le (Nat.le_mul_of_pos_left _ hone)

end Digit

namespace Numeral

open Double

/-- **The value of a numeral without its sign.** -/
def absValue (n : Numeral) : ℚ := Digit.value n.digits * 10 ^ n.scale

theorem absValue_nonneg (n : Numeral) : 0 ≤ n.absValue := by
  rw [absValue]
  positivity

/-- A numeral is less than the power of ten that its significant digits and its scale give. -/
theorem absValue_lt (n : Numeral) :
    n.absValue < 10 ^ (((n.digits.dropWhile (· == 0)).length : ℤ) + n.scale) := by
  have hdigits := Digit.value_lt (n.digits.dropWhile (· == 0))
  rw [Digit.value_dropWhile_zero] at hdigits
  rw [absValue, zpow_add₀ (by norm_num), zpow_natCast]
  refine mul_lt_mul_of_pos_right ?_ (by positivity)
  exact_mod_cast hdigits

/-- With a significant digit, it is at least a tenth of that. -/
theorem le_absValue {n : Numeral} (h : n.digits.dropWhile (· == 0) ≠ []) :
    10 ^ (((n.digits.dropWhile (· == 0)).length : ℤ) - 1 + n.scale) ≤ n.absValue := by
  have hdigits := Digit.pow_le_value n.digits h
  have hlength : ((n.digits.dropWhile (· == 0)).length : ℤ) - 1
      = ((n.digits.dropWhile (· == 0)).length - 1 : ℕ) := by
    have := List.length_pos_iff.mpr h
    omega
  rw [hlength, absValue, zpow_add₀ (by norm_num), zpow_natCast]
  refine mul_le_mul_of_nonneg_right ?_ (by positivity)
  exact_mod_cast hdigits

/-- **The magnitude of a numeral is correctly rounded**, also where its power of ten is not
    computed. -/
theorem isRounded_toMagnitude (n : Numeral) : IsRounded n.absValue n.toMagnitude := by
  have hten : (1 : ℚ) ≤ 10 := by norm_num
  rw [toMagnitude]
  split
  · next hnone =>
      -- no digit is significant
      have hvalue : Digit.value n.digits = 0 := by
        rw [← Digit.value_dropWhile_zero, List.length_eq_zero_iff.mp (beq_iff_eq.mp hnone)]
        rfl
      rw [absValue, hvalue, Nat.cast_zero, zero_mul]
      exact isRounded_zero (le_refl 0) (by rw [mul_zero]; positivity)
  · next hsome =>
      rw [beq_iff_eq, List.length_eq_zero_iff] at hsome
      split
      · next hlarge =>
          -- the value is at least `10 ^ 309`
          refine isRounded_infinity ?_
          calc (2 : ℚ) ^ 1024 - 2 ^ 970 ≤ 2 ^ 1024 := sub_le_self _ (by positivity)
            _ ≤ 10 ^ 309 := two_pow_le_ten_pow
            _ = 10 ^ (309 : ℤ) := (zpow_natCast _ _).symm
            _ ≤ 10 ^ (((n.digits.dropWhile (· == 0)).length : ℤ) - 1 + n.scale) :=
                zpow_le_zpow_right₀ hten (by omega)
            _ ≤ n.absValue := le_absValue hsome
      · split
        · next hsmall =>
            -- the value is below `10 ^ -324`
            refine isRounded_zero n.absValue_nonneg ?_
            calc 2 * n.absValue
                < 2 * 10 ^ (((n.digits.dropWhile (· == 0)).length : ℤ) + n.scale) :=
                  mul_lt_mul_of_pos_left n.absValue_lt two_pos
              _ ≤ 2 * 10 ^ (-324 : ℤ) :=
                  mul_le_mul_of_nonneg_left (zpow_le_zpow_right₀ hten hsmall) two_pos.le
              _ = 2 / 10 ^ 324 := by
                  rw [zpow_neg, div_eq_mul_inv]
                  exact congrArg (2 * ·⁻¹) (zpow_natCast _ _)
              _ ≤ 1 / 2 ^ 1074 := by
                  rw [div_le_div_iff₀ (by positivity) (by positivity), one_mul]
                  exact two_mul_two_pow_lt_ten_pow.le
        · exact isRounded_ofDecimal _ _

end Numeral

end Inlay
