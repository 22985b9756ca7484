import Inlay.Matcher
import Inlay.Proofs.Matching
import Mathlib.Data.List.Forall2

/-!
# Which names the default matcher accepts

The default matcher accepts a name that ends in the extension `.json`, possibly with the loader tag
`!json` behind it. The matcher is the general one, with a pattern that was read like any other. All
that is special is how its **letters** are spelled: in either case, and `s` also as the long `ſ`,
which simple case folding takes for the same letter.

* `IsForm`, `SpellsJson`: the spellings of a letter and of `json`.
* `caseOrigins`: the characters with a given case form, read off the rows backwards.
* `contains_letter_iff`: the case forms of the letters of the default pattern.
* `default_regex_eq`: the default pattern, as it is understood.
* `takes_spelled`: letters one after the other take their spellings.
* `default_accepts_names_with_extension`: the names that are accepted.
-/

namespace Inlay

open Pattern

/-! ## Spellings -/

/-- **A form of a letter**: the letter in either case, and for `s` also the long one. -/
def IsForm (letter c : Char) : Prop :=
  c = letter ∨ c = letter.toUpper ∨ (letter = 's' ∧ c = 'ſ')

/-- The word spells these letters. -/
abbrev Spells : List Char → List Char → Prop := List.Forall₂ IsForm

/-- **The word spells `json`**, each letter in one of its forms. -/
def SpellsJson (word : List Char) : Prop := Spells ['j', 's', 'o', 'n'] word

/-- **A tag, or none.** -/
def OptionalTag (tag : List Char) : Prop := tag = [] ∨ ∃ word, tag = '!' :: word ∧ SpellsJson word

/-- A mark before `json`; the marks of the pattern have no other case form. -/
theorem spells_mark_iff {mark : Char} (h : mark = '.' ∨ mark = '!') {word : List Char} :
    Spells [mark, 'j', 's', 'o', 'n'] word ↔ ∃ rest, word = mark :: rest ∧ SpellsJson rest := by
  have hform : ∀ c, IsForm mark c ↔ c = mark := by
    intro c
    rcases h with rfl | rfl <;> simp [IsForm]
  constructor
  · rintro (_ | ⟨hmark, hrest⟩)
    obtain rfl := (hform _).mp hmark
    exact ⟨_, rfl, hrest⟩
  · rintro ⟨rest, rfl, hrest⟩
    exact .cons (Or.inl rfl) hrest

/-! ## Case forms -/

namespace Text

/-- The code points for which a row gives `n`. -/
def FoldRow.origins (row : FoldRow) (n : Nat) : List Nat :=
  (row.shifts.map fun d => (Int.ofNat n - d).toNat).filter row.covers

/-- **The code points with `n` among their case forms.** -/
def caseOrigins (n : Nat) : List Nat := foldRows.flatMap fun row => row.origins n

theorem mem_of_foldRow? {n : Nat} {rows : List FoldRow} {row : FoldRow}
    (h : foldRow? n rows = some row) : row ∈ rows ∧ row.covers n = true := by
  induction rows with
  | nil => cases h
  | cons first rows ih =>
      rw [foldRow?] at h
      split at h
      · cases h
      · split at h
        · rename_i hcovers
          cases h
          exact ⟨List.mem_cons_self, hcovers⟩
        · exact ⟨List.mem_cons_of_mem _ (ih h).1, (ih h).2⟩

/-- A code point that is made a character, other than that of NUL, is the code point of it. -/
theorem eq_toNat_of_ofNat {n : Nat} {c : Char} (h : Char.ofNat n = c) (hc : c.toNat ≠ 0) :
    n = c.toNat := by
  subst h
  by_cases hn : n.isValidChar
  · rw [Char.ofNat, dif_pos hn]
    rfl
  · rw [Char.ofNat, dif_neg hn] at hc
    exact absurd rfl hc

/-- **A character with the case form `letter` is one of its origins.** -/
theorem mem_caseOrigins {letter c : Char} (hletter : letter.toNat ≠ 0)
    (h : letter ∈ caseVariants c) : c.toNat ∈ caseOrigins letter.toNat := by
  rw [caseVariants] at h
  split at h
  case h_2 => cases h
  case h_1 row hrow =>
      obtain ⟨hmem, hcovers⟩ := mem_of_foldRow? hrow
      obtain ⟨n, hn, hofNat⟩ := List.mem_map.mp h
      obtain ⟨d, hd, hshift⟩ := List.mem_map.mp hn
      have hn' := eq_toNat_of_ofNat hofNat hletter
      -- the shift is undone; it cannot have been cut off at zero
      have hback : (Int.ofNat letter.toNat - d).toNat = c.toNat := by
        rw [Int.ofNat_eq_natCast] at hshift ⊢
        omega
      exact List.mem_flatMap.mpr ⟨row, hmem, List.mem_filter.mpr
        ⟨List.mem_map.mpr ⟨d, hd, hback⟩, hcovers⟩⟩

end Text

/-! ## Letters of the default pattern -/

namespace Matcher

/-- The characters that stand for themselves in the default pattern. -/
def patternLetters : List Char := ['.', '!', 'j', 's', 'o', 'n']

/-- No character but the forms of a letter has it among its case forms. -/
theorem eq_of_mem_caseOrigins {letter : Char} (h : letter ∈ patternLetters) {n : Nat}
    (hn : n ∈ Text.caseOrigins letter.toNat) :
    n = letter.toUpper.toNat ∨ (letter = 's' ∧ n = 'ſ'.toNat) := by
  have hall : (patternLetters.all fun letter => (Text.caseOrigins letter.toNat).all fun n =>
      n == letter.toUpper.toNat || (letter == 's' && n == 'ſ'.toNat)) = true := by
    decide +kernel
  have hletter := List.all_eq_true.mp (List.all_eq_true.mp hall letter h) n hn
  simpa using hletter

/-- The forms of a letter have it among their case forms. -/
theorem mem_caseVariants_forms {letter : Char} (h : letter ∈ patternLetters) :
    (letter.toUpper = letter ∨ letter ∈ Text.caseVariants letter.toUpper) ∧
      (letter = 's' → letter ∈ Text.caseVariants 'ſ') := by
  have hall : (patternLetters.all fun letter =>
      letter.toUpper == letter || (Text.caseVariants letter.toUpper).contains letter) = true := by
    decide +kernel
  have hlong : (Text.caseVariants 'ſ').contains 's' = true := by decide +kernel
  refine ⟨by simpa using List.all_eq_true.mp hall letter h, ?_⟩
  rintro rfl
  simpa using hlong

theorem contains_single {letter c : Char} :
    (CharSet.single letter).contains c = true ↔ c = letter := by
  simp only [CharSet.single, CharSet.contains, Bool.and_eq_true, decide_eq_true_eq]
  constructor
  · rintro ⟨hlo, hhi⟩
    exact Char.le_antisymm hhi hlo
  · rintro rfl
    exact ⟨Char.le_refl c, Char.le_refl c⟩

theorem contains_caseless_single {letter c : Char} :
    (CharSet.caseless (.single letter)).contains c = true ↔
      c = letter ∨ letter ∈ Text.caseVariants c := by
  rw [CharSet.contains, Bool.or_eq_true, contains_single, List.any_eq_true]
  simp only [contains_single, exists_eq_right]

/-- **Without regard to case, a letter of the default pattern is in its forms.** -/
theorem contains_letter_iff {letter : Char} (h : letter ∈ patternLetters) (c : Char) :
    (CharSet.caseless (.single letter)).contains c = true ↔ IsForm letter c := by
  obtain ⟨hupper, hlong⟩ := mem_caseVariants_forms h
  rw [contains_caseless_single]
  constructor
  · rintro (rfl | hvariant)
    · exact Or.inl rfl
    · have hnul : letter.toNat ≠ 0 := by
        have hall : (patternLetters.all fun letter => letter.toNat != 0) = true := by decide
        simpa using List.all_eq_true.mp hall letter h
      rcases eq_of_mem_caseOrigins h (Text.mem_caseOrigins hnul hvariant) with hc | ⟨hs, hc⟩
      · exact Or.inr (Or.inl (Char.toNat_inj.mp hc))
      · exact Or.inr (Or.inr ⟨hs, Char.toNat_inj.mp hc⟩)
  · rintro (rfl | rfl | ⟨hs, rfl⟩)
    · exact Or.inl rfl
    · exact hupper
    · exact Or.inr (hlong hs)

/-- A letter without regard to case. -/
def letter (c : Char) : Regex Atom := .atom (.char (.caseless (.single c)))

/-- Letters one after the other, and then something else. -/
def spelled (letters : List Char) (r : Regex Atom) : Regex Atom :=
  letters.foldr (fun c r => .seq (letter c) r) r

section

variable {r : Regex Atom} {front word back : List Char}

theorem takes_letter {c : Char} (h : c ∈ patternLetters) :
    (letter c).Takes front word back ↔ Spells [c] word := by
  have htakes : (letter c).Takes front word back ↔ ∃ d, word = [d] ∧ IsForm c d := by
    simp only [← contains_letter_iff h]
    exact Iff.rfl
  rw [htakes]
  constructor
  · rintro ⟨d, rfl, hd⟩
    exact .cons hd .nil
  · rintro (_ | ⟨hd, hnil⟩)
    cases hnil
    exact ⟨_, rfl, hd⟩

/-- **Letters one after the other take their spellings**, and what is behind them the rest. -/
theorem takes_spelled {letters : List Char} (h : ∀ c ∈ letters, c ∈ patternLetters) :
    (spelled letters r).Takes front word back ↔
      Then (fun _ word _ => Spells letters word) r.Takes front word back := by
  induction letters generalizing front word with
  | nil =>
      show r.Takes front word back ↔ _
      constructor
      · intro hr
        exact ⟨[], word, rfl, .nil, by simpa using hr⟩
      · rintro ⟨u, v, rfl, hu, hv⟩
        cases hu
        simpa using hv
  | cons c letters ih =>
      have hc := h c List.mem_cons_self
      have hletters : ∀ d ∈ letters, d ∈ patternLetters :=
        fun d hd => h d (List.mem_cons_of_mem c hd)
      constructor
      · rintro ⟨u, v, rfl, hu, hv⟩
        obtain ⟨x, y, rfl, hx, hy⟩ := (ih hletters).mp hv
        obtain _ | ⟨hd, hnil⟩ := (takes_letter hc).mp hu
        cases hnil
        exact ⟨_ :: x, y, rfl, .cons hd hx, by simpa using hy⟩
      · rintro ⟨u, v, rfl, hu, hv⟩
        obtain _ | ⟨hd, hrest⟩ := hu
        exact ⟨[_], _ ++ v, rfl, (takes_letter hc).mpr (.cons hd .nil),
          (ih hletters).mpr ⟨_, v, rfl, hrest, by simpa using hv⟩⟩

/-- Spellings one after the other are a spelling. -/
theorem then_spells_iff {first second : List Char} :
    Then (fun _ word _ => Spells first word) (fun _ word _ => Spells second word) front word back ↔
      Spells (first ++ second) word := by
  constructor
  · rintro ⟨u, v, rfl, hu, hv⟩
    exact List.rel_append hu hv
  · intro h
    exact ⟨word.take first.length, word.drop first.length, (List.take_append_drop _ _).symm,
      (List.forall₂_take_append _ _ _ h.flip).flip, (List.forall₂_drop_append _ _ _ h.flip).flip⟩

end

/-- **The default pattern**: the extension, a tag that may be left out, and the end of the text. -/
theorem default_regex_eq : default.regex =
    .seq .empty (spelled ['.', 'j', 's', 'o', 'n']
      (.seq (.rep (spelled ['!', 'j', 's', 'o'] (letter 'n')) 0 (some 1))
        (.atom (.look .textEnd)))) :=
  rfl

theorem takes_tag {front word back : List Char} :
    (spelled ['!', 'j', 's', 'o'] (letter 'n')).Takes front word back ↔
      ∃ rest, word = '!' :: rest ∧ SpellsJson rest := by
  rw [takes_spelled (by simp [patternLetters]), ← spells_mark_iff (Or.inr rfl)]
  have hlast : (letter 'n').Takes = fun _ word _ => Spells ['n'] word := by
    funext front word back
    exact propext (takes_letter (by simp [patternLetters]))
  rw [hlast]
  exact then_spells_iff

/-- **What the default pattern takes**: the extension and possibly a tag, at the end of the text. -/
theorem takes_default_iff {front word back : List Char} :
    default.regex.Takes front word back ↔
      back = [] ∧ ∃ ext tag, word = '.' :: ext ++ tag ∧ SpellsJson ext ∧ OptionalTag tag := by
  rw [default_regex_eq, Regex.Takes, Regex.Takes, then_nil_left,
    takes_spelled (by simp [patternLetters])]
  constructor
  · rintro ⟨u, v, rfl, hu, tag, rest, rfl, htag, rfl, hend⟩
    obtain ⟨ext, rfl, hext⟩ := (spells_mark_iff (Or.inl rfl)).mp hu
    refine ⟨?_, ext, tag, by simp, hext, ?_⟩
    · simpa [Look.holds] using hend
    · exact (takes_optional.mp htag).imp_right takes_tag.mp
  · rintro ⟨rfl, ext, tag, rfl, hext, htag⟩
    refine ⟨'.' :: ext, tag, rfl, (spells_mark_iff (Or.inl rfl)).mpr ⟨ext, rfl, hext⟩,
      tag, [], by simp, ?_, rfl, rfl⟩
    exact takes_optional.mpr (htag.imp_right takes_tag.mpr)

end Matcher

/-- **The names that the default matcher accepts**: any text, a dot and `json`, possibly followed
    by an exclamation mark and `json`, and nothing behind it. -/
theorem default_accepts_names_with_extension (m : String) :
    Matcher.default.accepts m = true ↔
      ∃ front ext tag, m.toList = front ++ '.' :: ext ++ tag ∧
        SpellsJson ext ∧ OptionalTag tag := by
  rw [Matcher.accepts, isMatch_iff]
  constructor
  · rintro ⟨front, word, back, htext, htakes⟩
    obtain ⟨rfl, ext, tag, rfl, hext, htag⟩ := Matcher.takes_default_iff.mp htakes
    exact ⟨front, ext, tag, by simpa using htext, hext, htag⟩
  · rintro ⟨front, ext, tag, htext, hext, htag⟩
    exact ⟨front, '.' :: ext ++ tag, [], by simpa using htext,
      Matcher.takes_default_iff.mpr ⟨rfl, ext, tag, rfl, hext, htag⟩⟩

example :
    Matcher.default.accepts ".jſON!json" = true ∧ Matcher.default.accepts "a.json\n" = false := by
  decide +kernel

end Inlay
