import Inlay.Text.FoldTable

/-!
# Letters without regard to case

`caseVariants c` lists the other characters that simple case folding identifies with `c`: `S`, `s`
and the long `ſ` are one letter, so each has the other two as variants. The relation is decided
character by character; no character becomes two (`ß` is `ẞ`, but not `ss`).
-/

namespace Inlay.Text

namespace FoldRow

/-- The row covers the code point `n`. -/
def covers (row : FoldRow) (n : Nat) : Bool :=
  row.first ≤ n && n ≤ row.last && (n - row.first) % row.stride == 0

/-- The code points that the row gives for `n`. -/
def images (row : FoldRow) (n : Nat) : List Nat :=
  row.shifts.map fun d => (Int.ofNat n + d).toNat

end FoldRow

/-- The first row that covers `n`. The rows are ordered, so the search stops at a row that starts
    behind `n`. -/
def foldRow? (n : Nat) : List FoldRow → Option FoldRow
  | [] => none
  | row :: rows =>
    if n < row.first then none
    else if row.covers n then some row
    else foldRow? n rows

/-- **The other case forms of a character**; none for most. -/
def caseVariants (c : Char) : List Char :=
  match foldRow? c.toNat foldRows with
  | some row => (row.images c.toNat).map Char.ofNat
  | none => []

/-- The other case form of an ASCII letter, if it is one. -/
def asciiVariants (c : Char) : List Char :=
  if 'a' ≤ c && c ≤ 'z' then [Char.ofNat (c.toNat - 32)]
  else if 'A' ≤ c && c ≤ 'Z' then [Char.ofNat (c.toNat + 32)]
  else []

end Inlay.Text
