import Inlay.Json.Scan
import Inlay.Proofs.Grammar

/-!
# Scanning spelled parts

What the readers of parts do on the texts that the grammar gives these parts: white space is
dropped, and words, numerals and strings are taken off the front of the text whole, with the rest
left as it is. A numeral ends where something follows that cannot continue it.

* `Follows`: what may stand behind a value.
* `numeral_text`: numerals; `stringFrom_spelled`: strings.
-/

namespace Inlay.Json

/-! ## Blanks -/

theorem isBlank_iff {c : Char} : isBlank c = true ↔ c = ' ' ∨ c = '\t' ∨ c = '\n' ∨ c = '\r' := by
  simp only [isBlank, Bool.or_eq_true, beq_iff_eq, or_assoc]

/-- Blanks are dropped. -/
theorem skipBlank_append {w : List Char} (h : Blanks w) (s : List Char) :
    skipBlank (w ++ s) = skipBlank s := by
  rw [skipBlank, List.dropWhile_append_of_pos (fun c hc => isBlank_iff.mpr (h c hc)), skipBlank]

/-- Nothing else is. -/
theorem skipBlank_cons {c : Char} (h : isBlank c = false) (s : List Char) :
    skipBlank (c :: s) = c :: s := by
  rw [skipBlank, List.dropWhile_cons, if_neg (Bool.eq_false_iff.mp h)]

/-- **What may stand behind a value**: the end of the text, a blank, a comma or a closing bracket.
    -/
def Follows (s : List Char) : Prop :=
  ∀ c ∈ s.head?, c = ' ' ∨ c = '\t' ∨ c = '\n' ∨ c = '\r' ∨ c = ',' ∨ c = ']' ∨ c = '\x7d'

theorem follows_cons {c : Char} (h : c = ',' ∨ c = ']' ∨ c = '\x7d') (s : List Char) :
    Follows (c :: s) := by
  intro x hx
  obtain rfl : c = x := Option.some.inj hx
  exact Or.inr (Or.inr (Or.inr (Or.inr h)))

/-- Blanks may stand behind a value. -/
theorem follows_append {w : List Char} (hw : Blanks w) {s : List Char} (hs : Follows s) :
    Follows (w ++ s) := by
  cases w with
  | nil => exact hs
  | cons c rest =>
      intro x hx
      obtain rfl : c = x := Option.some.inj hx
      rcases hw c List.mem_cons_self with h | h | h | h <;> simp only [h, true_or, or_true]

/-! ## Numerals -/

/-- Text that no row of digits goes on with. -/
def NoDigit (s : List Char) : Prop := ∀ c ∈ s.head?, Digit.ofChar? c = none

theorem Follows.noDigit {s : List Char} (h : Follows s) : NoDigit s := by
  intro c hc
  rcases h c hc with rfl | rfl | rfl | rfl | rfl | rfl | rfl <;> decide

theorem ofChar?_char : ∀ d : Digit, Digit.ofChar? d.char = some d := by decide

theorem eq_char_of_ofChar? {c : Char} {d : Digit} (h : Digit.ofChar? c = some d) :
    c = d.char := by
  rw [Digit.ofChar?] at h
  split at h
  · next hrange =>
      obtain rfl := Option.some.inj h
      rw [Digit.char, Nat.add_sub_cancel' hrange.1, Char.ofNat_toNat]
  · exact nomatch h

/-- The character of a digit is no other character. -/
theorem char_ne {c : Char} (h : Digit.ofChar? c = none) (d : Digit) : d.char ≠ c := by
  rintro rfl
  rw [ofChar?_char] at h
  exact nomatch h

/-- A row of digits is read to its end. -/
theorem digits_append (ds : List Digit) {s : List Char} (h : NoDigit s) :
    digits (ds.map Digit.char ++ s) = (ds, s) := by
  induction ds with
  | nil =>
      cases s with
      | nil => rfl
      | cons c rest =>
          rw [List.map_nil, List.nil_append, digits, h c rfl]
  | cons d rest ih =>
      rw [List.map_cons, List.cons_append, digits, ofChar?_char]
      simp only [ih]

/-- The digits before the point. -/
theorem wholePart_append {ds : List Digit} (hds : ds = [0] ∨ ∃ d rest, ds = d :: rest ∧ d ≠ 0)
    {s : List Char} (h : NoDigit s) : wholePart (ds.map Digit.char ++ s) = .ok (ds, s) := by
  rcases hds with rfl | ⟨d, rest, rfl, hd⟩
  · have hnone := digits_append [] h
    rw [List.map_nil, List.nil_append] at hnone
    rw [List.map_cons, List.cons_append, wholePart, ofChar?_char]
    simp only [List.map_nil, List.nil_append, hnone]
    rfl
  · have hd' : d.val ≠ 0 := fun hzero => hd (Fin.ext hzero)
    rw [List.map_cons, List.cons_append, wholePart, ofChar?_char]
    simp only [digits_append rest h, if_neg hd']

/-- The point and the digits behind it, as they are written. -/
def fractionText : Option (List Digit) → List Char
  | some ds => '.' :: ds.map Digit.char
  | none => []

/-- The exponent as it is written, if there is one. -/
def exponentText : Option Exponent → List Char
  | some e => e.text
  | none => []

/-- The parts of a written numeral. -/
theorem toList_text (n : Numeral) :
    n.text.toList
      = (if n.negative then ['-'] else [])
        ++ (n.whole.map Digit.char ++ (fractionText n.fraction ++ exponentText n.exponent)) := by
  obtain ⟨negative, whole, fraction, exponent⟩ := n
  simp only [Numeral.text, String.toList_ofList, List.append_assoc]
  cases fraction <;> cases exponent <;> rfl

/-- The digits behind the point. -/
theorem fractionPart_append {fraction : Option (List Digit)} (h : ∀ ds ∈ fraction, ds ≠ [])
    {s : List Char} (hdigit : NoDigit s) (hpoint : ∀ c ∈ s.head?, c ≠ '.') :
    fractionPart (fractionText fraction ++ s) = .ok (fraction, s) := by
  cases fraction with
  | none =>
      rw [fractionText, List.nil_append, fractionPart]
      intro rest hrest
      exact hpoint '.' (by rw [hrest]; rfl) rfl
  | some ds =>
      have hne : ds.isEmpty = false := by
        cases ds with
        | nil => exact absurd rfl (h [] rfl)
        | cons d rest => rfl
      rw [fractionText, List.cons_append, fractionPart]
      simp only [digits_append ds hdigit, hne]
      rfl

/-- The sign of an exponent as it is written. -/
def signText : ExponentSign → List Char
  | .unsigned => []
  | .plus => ['+']
  | .minus => ['-']

/-- The sign of an exponent stands before a digit. -/
theorem exponentSign_append (sign : ExponentSign) (d : Digit) (s : List Char) :
    exponentSign (signText sign ++ d.char :: s) = (sign, d.char :: s) := by
  cases sign with
  | plus => rfl
  | minus => rfl
  | unsigned =>
      rw [signText, List.nil_append, exponentSign]
      · intro rest hrest
        exact char_ne (by decide) d (List.cons.inj hrest).1
      · intro rest hrest
        exact char_ne (by decide) d (List.cons.inj hrest).1

/-- The sign and the digits of an exponent. -/
theorem exponentBody_append (capital : Bool) (sign : ExponentSign) {ds : List Digit}
    (hds : ds ≠ []) {s : List Char} (h : NoDigit s) :
    exponentBody capital (signText sign ++ (ds.map Digit.char ++ s))
      = .ok (some ⟨capital, sign, ds⟩, s) := by
  obtain ⟨d, rest, rfl⟩ := List.exists_cons_of_ne_nil hds
  have hdigits := digits_append (d :: rest) h
  rw [List.map_cons, List.cons_append] at hdigits ⊢
  rw [exponentBody, exponentSign_append]
  simp only [hdigits, ofChar?_char]
  rfl

/-- The exponent. -/
theorem exponentPart_append {exponent : Option Exponent} (h : ∀ e ∈ exponent, e.digits ≠ [])
    {s : List Char} (hs : Follows s) :
    exponentPart (exponentText exponent ++ s) = .ok (exponent, s) := by
  cases exponent with
  | none =>
      rw [exponentText, List.nil_append]
      cases s with
      | nil => rfl
      | cons c rest =>
          rcases hs c rfl with rfl | rfl | rfl | rfl | rfl | rfl | rfl <;> rfl
  | some e =>
      obtain ⟨capital, sign, ds⟩ := e
      have hbody := exponentBody_append capital sign (h _ rfl) hs.noDigit
      have htext : (Exponent.mk capital sign ds).text
          = (if capital then 'E' else 'e') :: (signText sign ++ ds.map Digit.char) := by
        cases sign <;> rfl
      rw [exponentText, htext, List.cons_append, List.append_assoc]
      cases capital with
      | true => exact hbody
      | false => exact hbody

/-- What stands behind the digits of a numeral. -/
theorem noDigit_exponentText (exponent : Option Exponent) {s : List Char} (hs : Follows s) :
    NoDigit (exponentText exponent ++ s) ∧ ∀ c ∈ (exponentText exponent ++ s).head?, c ≠ '.' := by
  cases exponent with
  | none =>
      refine ⟨hs.noDigit, ?_⟩
      intro c hc
      rcases hs c hc with rfl | rfl | rfl | rfl | rfl | rfl | rfl <;> decide
  | some e =>
      have hhead : ∀ c ∈ (exponentText (some e) ++ s).head?, c = 'E' ∨ c = 'e' := by
        intro c hc
        obtain ⟨capital, sign, ds⟩ := e
        obtain rfl : (if capital then 'E' else 'e') = c := Option.some.inj hc
        cases capital with
        | true => exact Or.inl rfl
        | false => exact Or.inr rfl
      refine ⟨fun c hc => ?_, fun c hc => ?_⟩
      · rcases hhead c hc with rfl | rfl <;> decide
      · rcases hhead c hc with rfl | rfl <;> decide

/-- The part of a numeral behind its sign. -/
theorem unsignedNumeral_append {n : Numeral} (h : n.IsWritten) {s : List Char} (hs : Follows s) :
    unsignedNumeral n.negative
        (n.whole.map Digit.char ++ (fractionText n.fraction ++ (exponentText n.exponent ++ s)))
      = .ok (n, s) := by
  obtain ⟨hdigit, hpoint⟩ := noDigit_exponentText n.exponent hs
  have hwhole : NoDigit (fractionText n.fraction ++ (exponentText n.exponent ++ s)) := by
    cases n.fraction with
    | none => exact hdigit
    | some ds =>
        intro c hc
        obtain rfl : '.' = c := Option.some.inj hc
        decide
  rw [unsignedNumeral, wholePart_append h.whole hwhole]
  show (fractionPart _ >>= _) = _
  rw [fractionPart_append h.fraction hdigit hpoint]
  show (exponentPart _ >>= _) = _
  rw [exponentPart_append h.exponent hs]
  rfl

/-- A numeral has a first digit. -/
theorem exists_digit_of_isWritten {n : Numeral} (h : n.IsWritten) :
    ∃ d rest, n.whole = d :: rest := by
  rcases h.whole with hzero | ⟨d, rest, hwhole, -⟩
  · exact ⟨0, [], hzero⟩
  · exact ⟨d, rest, hwhole⟩

/-- **A numeral is read as it is written.** -/
theorem numeral_text {n : Numeral} (h : n.IsWritten) {s : List Char} (hs : Follows s) :
    numeral (n.text.toList ++ s) = .ok (n, s) := by
  have hrest := unsignedNumeral_append h hs
  rw [toList_text]
  simp only [List.append_assoc]
  cases hsign : n.negative with
  | true =>
      rw [hsign] at hrest
      exact hrest
  | false =>
      obtain ⟨d, ds, hwhole⟩ := exists_digit_of_isWritten h
      rw [hsign, hwhole] at hrest
      rw [hwhole]
      -- the first character is a digit, and not a minus
      refine (numeral.eq_2 _ ?_).trans hrest
      intro rest hminus
      exact char_ne (by decide) d (List.cons.inj hminus).1

/-! ## Strings -/

/-- A hexadecimal digit has its value. -/
theorem hexValue?_of_hexDigit {c : Char} {n : Nat} (h : HexDigit c n) :
    Text.hexValue? c = some n ∧ n < 16 := by
  have hlt : n < 16 := by
    rcases h with h | h
    · exact (List.getElem?_eq_some_iff.mp h).1
    · exact (List.getElem?_eq_some_iff.mp h).1
  refine ⟨?_, hlt⟩
  have hall : ∀ i : Fin 16,
      "0123456789abcdef".toList[i.val]?.bind Text.hexValue? = some i.val ∧
        "0123456789ABCDEF".toList[i.val]?.bind Text.hexValue? = some i.val := by
    decide
  obtain ⟨hlower, hupper⟩ := hall ⟨n, hlt⟩
  rcases h with h | h
  · simp only [h] at hlower
    exact hlower
  · simp only [h] at hupper
    exact hupper

/-- Four hexadecimal digits are one unit. -/
theorem hexFour?_of_hexUnit {n : Nat} {row : List Char} (h : HexUnit n row) :
    ∃ a b c d, row = [a, b, c, d] ∧ hexFour? a b c d = some n.toUInt16 ∧ n < 0x10000 := by
  cases h with
  | @four a b c d i j k l ha hb hc hd =>
      obtain ⟨ha, hi⟩ := hexValue?_of_hexDigit ha
      obtain ⟨hb, hj⟩ := hexValue?_of_hexDigit hb
      obtain ⟨hc, hk⟩ := hexValue?_of_hexDigit hc
      obtain ⟨hd, hl⟩ := hexValue?_of_hexDigit hd
      refine ⟨a, b, c, d, rfl, ?_, by omega⟩
      have hvalue : ((i * 16 + j) * 16 + k) * 16 + l = i * 0x1000 + j * 0x100 + k * 0x10 + l := by
        omega
      simp only [hexFour?, ha, hb, hc, hd, ← hvalue]
      rfl

/-- The first half of a surrogate pair, by its number. -/
theorem isLeading_toUInt16 {n : Nat} (h : n < 0x10000) :
    Text.isLeading n.toUInt16 = (decide (0xD800 ≤ n) && decide (n ≤ 0xDBFF)) := by
  simp only [Text.isLeading, UInt16.le_iff_toNat_le, Nat.toUInt16_eq, UInt16.toNat_ofNat_of_lt' h]
  rfl

/-- The second half of a surrogate pair, by its number. -/
theorem isTrailing_toUInt16 {n : Nat} (h : n < 0x10000) :
    Text.isTrailing n.toUInt16 = (decide (0xDC00 ≤ n) && decide (n ≤ 0xDFFF)) := by
  simp only [Text.isTrailing, UInt16.le_iff_toNat_le, Nat.toUInt16_eq, UInt16.toNat_ofNat_of_lt' h]
  rfl

/-- **A character is read as it is spelled.** -/
theorem stringFrom_spelledChar {c : Char} {t : List Char} (h : SpelledChar c t)
    (done s : List Char) : stringFrom done (t ++ s) = stringFrom (c :: done) s := by
  cases h with
  | plain hprintable hquote hbackslash =>
      rw [List.singleton_append, stringFrom, if_neg (Nat.not_lt.mpr hprintable)]
      · exact hquote
      · exact fun h => absurd h hbackslash
      · exact fun _ h => absurd h hbackslash
      · exact fun _ _ h => absurd h hbackslash
  | @short letter _ h =>
      have hletter : letter ≠ 'u' ∧ escapeLetter? letter = some c := by
        have hall : ∀ entry ∈ shortEscapes,
            entry.1 ≠ 'u' ∧ escapeLetter? entry.1 = some entry.2 := by
          decide
        exact hall _ h
      rw [List.cons_append, List.singleton_append, stringFrom, hletter.2]
      exact hletter.1
  | unit h =>
      -- a character is no half of a pair, so its unit stands alone
      obtain ⟨a, b, d, e, rfl, hfour, hlt⟩ := hexFour?_of_hexUnit h
      have hvalid : c.toNat < 0xD800 ∨ 0xDFFF < c.toNat := c.valid.imp_right And.left
      have htrailing : Text.isTrailing c.toNat.toUInt16 = false := by
        rw [isTrailing_toUInt16 hlt, ← Bool.decide_and, decide_eq_false_iff_not]
        omega
      have hleading : Text.isLeading c.toNat.toUInt16 = false := by
        rw [isLeading_toUInt16 hlt, ← Bool.decide_and, decide_eq_false_iff_not]
        omega
      have hchar : Char.ofNat c.toNat.toUInt16.toNat = c := by
        rw [Nat.toUInt16_eq, UInt16.toNat_ofNat_of_lt' hlt, Char.ofNat_toNat]
      show stringFrom done ('\\' :: 'u' :: a :: b :: d :: e :: s) = _
      rw [stringFrom, hfour]
      simp only [htrailing, hleading, hchar]
      rfl
  | @pair _ lead trail row row' hlead htrail hlead' htrail' hc =>
      -- behind a leading half the second escape is read along with the first
      obtain ⟨a, b, d, e, rfl, hfour, hlt⟩ := hexFour?_of_hexUnit hlead
      obtain ⟨a', b', d', e', rfl, hfour', hlt'⟩ := hexFour?_of_hexUnit htrail
      have hfirst : Text.isTrailing (0xD800 + lead).toUInt16 = false := by
        rw [isTrailing_toUInt16 hlt, ← Bool.decide_and, decide_eq_false_iff_not]
        omega
      have hleading : Text.isLeading (0xD800 + lead).toUInt16 = true := by
        rw [isLeading_toUInt16 hlt, ← Bool.decide_and, decide_eq_true_iff]
        omega
      have htrailing : Text.isTrailing (0xDC00 + trail).toUInt16 = true := by
        rw [isTrailing_toUInt16 hlt', ← Bool.decide_and, decide_eq_true_iff]
        omega
      have hchar : Text.charOfPair (0xD800 + lead).toUInt16 (0xDC00 + trail).toUInt16 = c := by
        rw [Text.charOfPair, Nat.toUInt16_eq, Nat.toUInt16_eq, UInt16.toNat_ofNat_of_lt' hlt,
          UInt16.toNat_ofNat_of_lt' hlt', Nat.add_sub_cancel_left, Nat.add_sub_cancel_left, ← hc,
          Char.ofNat_toNat]
      show stringFrom done
        ('\\' :: 'u' :: a :: b :: d :: e :: '\\' :: 'u' :: a' :: b' :: d' :: e' :: s) = _
      rw [stringFrom, hfour]
      simp only [hfirst, hleading, hfour', htrailing, hchar]
      rfl

/-- **A string is read as it is spelled**, up to and including its closing quote. -/
theorem stringFrom_spelled {cs t : List Char} (h : SpelledString cs t) (done s : List Char) :
    stringFrom done (t ++ '"' :: s) = .ok (String.ofList (done.reverse ++ cs), s) := by
  induction h generalizing done with
  | nil =>
      rw [List.append_nil]
      rfl
  | cons h _ ih =>
      rw [List.append_assoc, stringFrom_spelledChar h, ih, List.reverse_cons, List.append_assoc]
      rfl

end Inlay.Json
