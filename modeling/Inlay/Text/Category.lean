import Inlay.Text.CategoryTable
import Inlay.Text.Digits

/-!
# General category of a character

Every code point has exactly one **general category**. `Category.of` looks it up in the run table by
halving the interval that can hold the code point; all character classes of `Inlay.Text.Class` are
stated in terms of it.
-/

namespace Inlay.Text

/-- **The general categories**, in the order letters, marks, numbers, punctuation, symbols,
    separators, others. -/
inductive Category where
  | uppercaseLetter | lowercaseLetter | titlecaseLetter | modifierLetter | otherLetter
  | nonspacingMark | spacingMark | enclosingMark
  | decimalNumber | letterNumber | otherNumber
  | connectorPunctuation | dashPunctuation | openPunctuation | closePunctuation
  | initialPunctuation | finalPunctuation | otherPunctuation
  | mathSymbol | currencySymbol | modifierSymbol | otherSymbol
  | spaceSeparator | lineSeparator | paragraphSeparator
  | control | format | surrogate | privateUse | unassigned
deriving DecidableEq, Repr, Inhabited

namespace Category

/-- The category with a given two-letter code; `unassigned` for a text that is none. -/
def ofCode : List Char → Category
  | ['L', 'u'] => uppercaseLetter
  | ['L', 'l'] => lowercaseLetter
  | ['L', 't'] => titlecaseLetter
  | ['L', 'm'] => modifierLetter
  | ['L', 'o'] => otherLetter
  | ['M', 'n'] => nonspacingMark
  | ['M', 'c'] => spacingMark
  | ['M', 'e'] => enclosingMark
  | ['N', 'd'] => decimalNumber
  | ['N', 'l'] => letterNumber
  | ['N', 'o'] => otherNumber
  | ['P', 'c'] => connectorPunctuation
  | ['P', 'd'] => dashPunctuation
  | ['P', 's'] => openPunctuation
  | ['P', 'e'] => closePunctuation
  | ['P', 'i'] => initialPunctuation
  | ['P', 'f'] => finalPunctuation
  | ['P', 'o'] => otherPunctuation
  | ['S', 'm'] => mathSymbol
  | ['S', 'c'] => currencySymbol
  | ['S', 'k'] => modifierSymbol
  | ['S', 'o'] => otherSymbol
  | ['Z', 's'] => spaceSeparator
  | ['Z', 'l'] => lineSeparator
  | ['Z', 'p'] => paragraphSeparator
  | ['C', 'c'] => control
  | ['C', 'f'] => format
  | ['C', 's'] => surrogate
  | ['C', 'o'] => privateUse
  | _ => unassigned

/-- Letters of any kind. -/
def isLetter : Category → Bool
  | uppercaseLetter | lowercaseLetter | titlecaseLetter | modifierLetter | otherLetter => true
  | _ => false

/-- Marks of any kind. -/
def isMark : Category → Bool
  | nonspacingMark | spacingMark | enclosingMark => true
  | _ => false

/-- Numbers of any kind. -/
def isNumber : Category → Bool
  | decimalNumber | letterNumber | otherNumber => true
  | _ => false

/-- Punctuation of any kind. -/
def isPunctuation : Category → Bool
  | connectorPunctuation | dashPunctuation | openPunctuation | closePunctuation
  | initialPunctuation | finalPunctuation | otherPunctuation => true
  | _ => false

/-- Symbols of any kind. -/
def isSymbol : Category → Bool
  | mathSymbol | currencySymbol | modifierSymbol | otherSymbol => true
  | _ => false

/-- Separators: spaces, line separators and paragraph separators. -/
def isSeparator : Category → Bool
  | spaceSeparator | lineSeparator | paragraphSeparator => true
  | _ => false

/-- Control and format characters, surrogates, private use and unassigned code points. -/
def isOther : Category → Bool
  | control | format | surrogate | privateUse | unassigned => true
  | _ => false

/-! ## Looking a category up -/

/-- A maximal stretch of code points of one category, by its first code point. -/
structure Run where
  first : Nat
  category : Category
deriving Inhabited

/-- Lays the entries of the run table end to end: an entry starts where the one before it ends. -/
def decodeRuns (entries : List String) : Array Run :=
  (entries.foldl
    (fun (runs, next) entry =>
      match entry.toList with
      | a :: b :: ds => (runs.push ⟨next, ofCode [a, b]⟩, next + decimalValue ds)
      | _ => (runs, next))
    ((#[], 0) : Array Run × Nat)).1

/-- The runs of all code points, by ascending first code point. -/
def runs : Array Run :=
  decodeRuns ((categoryRunText.splitOn "\n").flatMap (·.splitOn " "))

/-- **Halving search**: the category of the last run at or after index `lo` and before index `hi`
    that starts at or before `n`. -/
def search (table : Array Run) (n lo hi : Nat) : Category :=
  if lo + 1 < hi then
    let mid := (lo + hi) / 2
    match table[mid]? with
    | some run => if run.first ≤ n then search table n mid hi else search table n lo mid
    | none => unassigned
  else
    match table[lo]? with
    | some run => run.category
    | none => unassigned
termination_by hi - lo

/-- **The general category of a character.** -/
def of (c : Char) : Category := search runs c.toNat 0 runs.size

end Category

end Inlay.Text
