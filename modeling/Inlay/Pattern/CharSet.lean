import Inlay.Text.Class
import Inlay.Text.Fold

/-!
# Sets of characters

The sets that a pattern can write: ranges, named properties, and their unions, intersections,
differences and complements. A set can also be closed under case, so that it holds a character as
soon as it holds one of its other case forms.

* `CharSet.contains` decides membership.
-/

namespace Inlay.Pattern

open Text (Category)

/-- **A named property** of characters. -/
inductive Property where
  | any | ascii | assigned
  | blank | decimal | word | alphabetic
  | letter | casedLetter | mark | number | punctuation | symbol | separator | other
  | category (category : Category)
deriving DecidableEq, Repr

/-- The property holds of a character. -/
def Property.holds (c : Char) : Property → Bool
  | any => true
  | ascii => c.toNat < 0x80
  | assigned => Category.of c != .unassigned
  | blank => Text.isBlank c
  | decimal => Text.isDecimal c
  | word => Text.isWord c
  | alphabetic => Text.isAlphabetic c
  | letter => (Category.of c).isLetter
  | casedLetter =>
    Category.of c == .uppercaseLetter || Category.of c == .lowercaseLetter
      || Category.of c == .titlecaseLetter
  | mark => (Category.of c).isMark
  | number => (Category.of c).isNumber
  | punctuation => (Category.of c).isPunctuation
  | symbol => (Category.of c).isSymbol
  | separator => (Category.of c).isSeparator
  | other => (Category.of c).isOther
  | category k => Category.of c == k

/-- **A set of characters.** -/
inductive CharSet where
  | empty
  /-- All characters from `lo` to `hi`. -/
  | range (lo hi : Char)
  | property (p : Property)
  | union (a b : CharSet)
  | inter (a b : CharSet)
  | diff (a b : CharSet)
  /-- What is in exactly one of the two. -/
  | symmDiff (a b : CharSet)
  | compl (a : CharSet)
  /-- The set together with all case forms of its members. -/
  | caseless (a : CharSet)
  /-- The set together with the ASCII case forms of its members. -/
  | asciiCaseless (a : CharSet)
deriving Repr

namespace CharSet

/-- **Membership.** A character is in a caseless set if it or one of its case forms is. -/
def contains : CharSet → Char → Bool
  | empty, _ => false
  | range lo hi, c => lo ≤ c && c ≤ hi
  | property p, c => p.holds c
  | union a b, c => a.contains c || b.contains c
  | inter a b, c => a.contains c && b.contains c
  | diff a b, c => a.contains c && !b.contains c
  | symmDiff a b, c => a.contains c != b.contains c
  | compl a, c => !a.contains c
  | caseless a, c => a.contains c || (Text.caseVariants c).any a.contains
  | asciiCaseless a, c => a.contains c || (Text.asciiVariants c).any a.contains

/-- One character. -/
def single (c : Char) : CharSet := range c c

/-- The union of ranges. -/
def ofRanges (ranges : List (Char × Char)) : CharSet :=
  ranges.foldl (fun set (lo, hi) => union set (range lo hi)) empty

end CharSet

end Inlay.Pattern
