import Inlay.Proofs.Literals
import Inlay.Proofs.Rounding
import Inlay.Proofs.Scanning

/-!
# Numbers are written as the nearest doubles

A numeral is written as **one literal**, that of the double nearest to its value without the sign,
and with a minus in front of it if its text starts with one. From half a step above the largest
double on the quotient `1 / 0` takes the place of the literal, and behind a minus it stands in
parentheses. There is only one nearest double, ties going to the even one, so nothing is left open.

* `units_lt_units`: the words of doubles without sign are in the order of their values.
* `IsRounded.unique`: a value has one correctly rounded double.
* `Numeral.value`: the value of a numeral, read off its parts; `abs_value` takes the sign off.
* `number_is_written_as_nearest_double`: all numerals.
-/

namespace Inlay

namespace Double

/-! ## The order of words -/

/-- The double with a word. -/
def ofWord (word : Nat) : Double := ⟨BitVec.ofNat 64 word⟩

theorem toNat_ofWord {word : Nat} (h : word ≤ infinity.bits.toNat) :
    (ofWord word).bits.toNat = word := by
  rw [toNat_infinity] at h
  rw [ofWord, BitVec.toNat_ofNat]
  omega

theorem ofWord_toNat (d : Double) : ofWord d.bits.toNat = d :=
  congrArg Double.mk (BitVec.eq_of_toNat_eq (Nat.mod_eq_of_lt d.bits.isLt))

/-- **The next word has a greater value**, by one step of the binade that both belong to. -/
theorem units_lt_units_succ {d : Double} (hd : d.IsMagnitude)
    (hnext : d.bits.toNat + 1 ≤ infinity.bits.toNat) :
    d.units < (ofWord (d.bits.toNat + 1)).units := by
  have hmagnitude : (ofWord (d.bits.toNat + 1)).IsMagnitude := by
    rw [IsMagnitude, toNat_ofWord hnext]
    exact hnext
  -- the number of binades before, and of steps in it
  obtain ⟨binades, steps, hword, hsteps, hnormal⟩ : ∃ binades steps,
      d.bits.toNat = binades * 2 ^ 52 + steps ∧ steps < 2 ^ 53 ∧
        (binades = 0 ∨ 2 ^ 52 ≤ steps) := by
    refine ⟨d.bits.toNat / 2 ^ 52 - 1, d.bits.toNat - (d.bits.toNat / 2 ^ 52 - 1) * 2 ^ 52, ?_⟩
    omega
  have hword' : (ofWord (d.bits.toNat + 1)).bits.toNat = binades * 2 ^ 52 + (steps + 1) := by
    rw [toNat_ofWord hnext, hword, Nat.add_assoc]
  rw [units_of_word hd hword (by omega) hnormal,
    units_of_word hmagnitude hword' (by omega) (by omega)]
  exact Nat.mul_lt_mul_of_pos_right (Nat.lt_succ_self steps) (Nat.two_pow_pos binades)

/-- **The words of magnitudes are in the order of their values.** -/
theorem units_lt_units {d e : Double} (hd : d.IsMagnitude) (he : e.IsMagnitude)
    (h : d.bits.toNat < e.bits.toNat) : d.units < e.units := by
  obtain ⟨k, hk⟩ := Nat.exists_eq_add_of_lt h
  induction k generalizing e with
  | zero =>
      rw [← ofWord_toNat e, hk]
      exact units_lt_units_succ hd (hk ▸ he)
  | succ k ih =>
      -- the word before that of `e` is the next step down
      have hword : (ofWord (d.bits.toNat + k + 1)).bits.toNat = d.bits.toNat + k + 1 := by
        refine toNat_ofWord (Nat.le_trans ?_ he)
        omega
      have hmagnitude : (ofWord (d.bits.toNat + k + 1)).IsMagnitude := by
        refine Nat.le_trans ?_ he
        omega
      have hlast := units_lt_units_succ hmagnitude (by rw [hword]; exact hk ▸ he)
      rw [hword, show d.bits.toNat + k + 1 + 1 = e.bits.toNat from hk.symm, ofWord_toNat] at hlast
      exact Nat.lt_trans (ih hmagnitude (by omega) hword) hlast

theorem absValue_lt_absValue {d e : Double} (h : d.units < e.units) : d.absValue < e.absValue := by
  rw [absValue, absValue]
  exact div_lt_div_of_pos_right (Nat.cast_lt.mpr h) (by positivity)

/-! ## One rounded double -/

/-- What lies strictly between two equally distant values is closer. -/
theorem abs_sub_lt_of_between {a m b q : ℚ} (ham : a < m) (hmb : m < b)
    (htie : |a - q| = |b - q|) : |m - q| < |a - q| := by
  -- `q` is in the middle of `a` and `b`
  have hmiddle : a - q = -(b - q) := by
    rcases abs_eq_abs.mp htie with heq | heq
    · linarith
    · exact heq
  have hneg : a - q < 0 := by linarith
  rw [abs_of_neg hneg, abs_lt]
  constructor <;> linarith

/-- Two finite doubles with different words are not both correctly rounded: with both words even
    there is a double in between, and it would be closer. -/
theorem IsRounded.not_lt {q : ℚ} {d e : Double} (hd : IsRounded q d) (he : IsRounded q e)
    (hdfinite : d ≠ infinity) (hefinite : e ≠ infinity) : ¬ d.bits.toNat < e.bits.toNat := by
  intro hlt
  have hde := absValue_lt_absValue (units_lt_units hd.isMagnitude he.isMagnitude hlt)
  have htie : |d.absValue - q| = |e.absValue - q| :=
    le_antisymm (hd.nearest hdfinite e (he.isMagnitude.isFinite hefinite))
      (he.nearest hefinite d (hd.isMagnitude.isFinite hdfinite))
  have hdeven := hd.even hdfinite e (he.isMagnitude.isFinite hefinite) hde.ne' htie.symm
  have heeven := he.even hefinite d (hd.isMagnitude.isFinite hdfinite) hde.ne htie
  have hnext : d.bits.toNat + 1 < e.bits.toNat := by omega
  -- the double with the next word is closer to `q` than both
  have hbound : d.bits.toNat + 1 ≤ infinity.bits.toNat := Nat.le_trans hnext.le he.isMagnitude
  have hword := toNat_ofWord hbound
  have hmiddle : (ofWord (d.bits.toNat + 1)).IsMagnitude := by
    rw [IsMagnitude, hword]
    exact hbound
  have hfinite : (ofWord (d.bits.toNat + 1)).isFinite = true := by
    refine hmiddle.isFinite ?_
    intro heq
    have := he.isMagnitude
    rw [IsMagnitude] at this
    rw [heq] at hword
    omega
  have habove := absValue_lt_absValue (units_lt_units_succ hd.isMagnitude hbound)
  have hbelow := absValue_lt_absValue
    (units_lt_units hmiddle he.isMagnitude (by rw [hword]; exact hnext))
  exact absurd (hd.nearest hdfinite _ hfinite)
    (not_le.mpr (abs_sub_lt_of_between habove hbelow htie))

/-- **A value has one correctly rounded double.** -/
theorem IsRounded.unique {q : ℚ} {d e : Double} (hd : IsRounded q d) (he : IsRounded q e) :
    d = e := by
  by_cases hdinfinite : d = infinity
  · rw [hdinfinite, he.infinite.mpr (hd.infinite.mp hdinfinite)]
  · have heinfinite : e ≠ infinity := by
      intro heq
      exact hdinfinite (hd.infinite.mpr (he.infinite.mp heq))
    rw [← ofWord_toNat d, ← ofWord_toNat e]
    refine congrArg ofWord (Nat.le_antisymm ?_ ?_)
    · exact Nat.le_of_not_lt (he.not_lt hd heinfinite hdinfinite)
    · exact Nat.le_of_not_lt (hd.not_lt he hdinfinite heinfinite)

end Double

/-! ## Values and signs of numerals -/

/-- The digits of two rows, one behind the other. -/
theorem Digit.value_append (ds es : List Digit) :
    value (ds ++ es) = value ds * 10 ^ es.length + value es := by
  induction ds with
  | nil => simp [value]
  | cons d rest ih =>
      rw [List.cons_append, value_cons, value_cons, ih, List.length_append, pow_add]
      ring

namespace Numeral

/-- **The value of a numeral**: the digits before the point, the digits behind it as a fraction,
    both times the power of ten of the exponent, and the sign. -/
def value (n : Numeral) : ℚ :=
  (if n.negative then -1 else 1) *
    (Digit.value n.whole
      + Digit.value (n.fraction.getD []) / 10 ^ (n.fraction.getD []).length) *
    10 ^ (n.exponent.map Exponent.value).getD 0

/-- The value without the sign is that of all digits, moved by the scale. -/
theorem abs_value (n : Numeral) : |n.value| = n.absValue := by
  have hsign : |(if n.negative then -1 else 1 : ℚ)| = 1 := by
    split <;> simp
  have hparts : (0 : ℚ) ≤ Digit.value n.whole
      + Digit.value (n.fraction.getD []) / 10 ^ (n.fraction.getD []).length := by positivity
  have hpower : (0 : ℚ) < 10 ^ (n.fraction.getD []).length := by positivity
  rw [value, abs_mul, abs_mul, hsign, one_mul, abs_of_nonneg hparts,
    abs_of_nonneg (by positivity), absValue, digits, scale, Digit.value_append,
    zpow_sub₀ (by norm_num), zpow_natCast]
  push_cast
  field_simp

/-- The text of a numeral starts with a minus if it is negative. -/
theorem head?_text (n : Numeral) : n.text.toList.head? = some '-' ↔ n.negative = true := by
  rw [Json.toList_text]
  cases n.negative with
  | true => exact iff_of_true rfl rfl
  | false =>
      refine iff_of_false ?_ Bool.false_ne_true
      -- the first character is a digit, or else the point or the mark of an exponent
      cases n.whole with
      | cons d rest =>
          intro h
          exact Json.char_ne (by decide) d (Option.some.inj h)
      | nil =>
          cases n.fraction with
          | some ds => exact fun h => absurd (Option.some.inj h) (by decide)
          | none =>
              cases n.exponent with
              | none => exact nofun
              | some e =>
                  intro h
                  have hmark : (if e.capital then 'E' else 'e') = '-' := Option.some.inj h
                  split at hmark
                  · exact absurd hmark (by decide)
                  · exact absurd hmark (by decide)

/-- The double of a numeral is a number. -/
theorem isNaN_toDouble (n : Numeral) : n.toDouble.isNaN = false := by
  rw [Double.isNaN, n.magnitude_toDouble, decide_eq_false_iff_not]
  exact Nat.not_lt.mpr n.isMagnitude_toMagnitude

end Numeral

open Code

/-- **A number is written as the double nearest to it.** Below half a step above the largest double,
    it is the literal of the one double that is correctly rounded from its value without the sign: a
    finite one without sign. From there on it is the quotient `1 / 0`. A minus stands in front if
    the text starts with one, also in front of a zero, and the quotient is in parentheses then. -/
theorem number_is_written_as_nearest_double (n : Numeral) :
    (|n.value| < 2 ^ 1024 - 2 ^ 970 →
      ∃ d : Double, d.isFinite = true ∧ d.isNegative = false ∧
        (∀ e, Double.IsRounded |n.value| e ↔ e = d) ∧
        Literal.number n
          = if n.text.toList.head? = some '-' then .node (.unary "-") [.number d]
            else .number d) ∧
    (2 ^ 1024 - 2 ^ 970 ≤ |n.value| →
      Literal.number n
        = if n.text.toList.head? = some '-' then
            .node (.unary "-")
              [.node .parens [.node (.binary "/") [.number Double.one, .number Double.zero]]]
          else .node (.binary "/") [.number Double.one, .number Double.zero]) ∧
    n.toDouble.isNaN = false := by
  have hrounded := n.isRounded_toMagnitude
  rw [← n.abs_value] at hrounded
  have hmagnitude := n.isMagnitude_toMagnitude
  simp only [n.head?_text, Literal.number_eq]
  refine ⟨?_, ?_, n.isNaN_toDouble⟩
  · intro hsmall
    have hfinite : n.toMagnitude ≠ Double.infinity := by
      intro heq
      exact absurd (hrounded.infinite.mp heq) (not_le.mpr hsmall)
    refine ⟨n.toMagnitude, hmagnitude.isFinite hfinite, hmagnitude.isNegative, ?_, ?_⟩
    · intro e
      constructor
      · intro he
        exact he.unique hrounded
      · rintro rfl
        exact hrounded
    · rw [Literal.operand, Literal.magnitude, if_neg hfinite, if_neg hfinite]
  · intro hlarge
    have hinfinite := hrounded.infinite.mpr hlarge
    rw [Literal.operand, Literal.magnitude, if_pos hinfinite, if_pos hinfinite]
    rfl

/-- The numbers `-1e400` and `-0.0`. -/
example :
    Literal.number ⟨true, [1], none, some ⟨false, .unsigned, [4, 0, 0]⟩⟩
      = .node (.unary "-") [.node .parens [Literal.infinity]] ∧
    Literal.number ⟨true, [0], some [0], none⟩
      = .node (.unary "-") [.number Double.zero] := ⟨rfl, rfl⟩

end Inlay
