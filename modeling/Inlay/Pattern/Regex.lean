import Inlay.Pattern.CharSet

/-!
# Regular expressions and where they match

A regular expression is built from **atoms**: an atom either takes one character of a given set,
or looks at the characters around a position and takes none. Matching follows all alternatives at
once: a set of positions of the text is a natural number whose bit `i` says whether position `i`
is in it, and `Regex.ends` maps the set of positions where matching may start to the set where it
may end. Time is therefore bounded by the size of expression and text; there is no backtracking.

* `Regex`, `Atom`, `Look`: expressions.
* `Regex.ends`: from starts to ends, with every atom already turned into the positions it allows.
* `Regex.isMatch`: does the expression match anywhere in a text?
-/

namespace Inlay.Pattern

/-! ## Expressions -/

/-- **A look** at the characters before and after a position. -/
inductive Look where
  /-- The start of the text. -/
  | textStart
  /-- The end of the text. -/
  | textEnd
  /-- The start of the text, or behind a line feed. -/
  | lineStart
  /-- The end of the text, or before a line feed. -/
  | lineEnd
  /-- The start of a line, where a carriage return, a line feed or both together end lines. -/
  | crlfLineStart
  /-- The end of such a line. -/
  | crlfLineEnd
  /-- Exactly one side is a word character; `ascii` restricts what a word character is. -/
  | boundary (ascii : Bool)
  /-- Both sides or neither side is a word character. -/
  | noBoundary (ascii : Bool)
  /-- A word starts here. -/
  | wordStart (ascii : Bool)
  /-- A word ends here. -/
  | wordEnd (ascii : Bool)
  /-- No word character before. -/
  | wordStartHalf (ascii : Bool)
  /-- No word character after. -/
  | wordEndHalf (ascii : Bool)
deriving DecidableEq, Repr

/-- A word character, or an ASCII one. -/
def isWordChar (ascii : Bool) (c : Char) : Bool :=
  Text.isWord c && (!ascii || c.toNat < 0x80)

/-- **The look holds** between two characters; at an end of the text one of them is missing. -/
def Look.holds (before after : Option Char) : Look → Bool
  | textStart => before.isNone
  | textEnd => after.isNone
  | lineStart => before.isNone || before == some '\n'
  | lineEnd => after.isNone || after == some '\n'
  | crlfLineStart =>
    before.isNone || before == some '\n' || (before == some '\r' && after != some '\n')
  | crlfLineEnd =>
    after.isNone || after == some '\r' || (after == some '\n' && before != some '\r')
  | boundary ascii => before.any (isWordChar ascii) != after.any (isWordChar ascii)
  | noBoundary ascii => before.any (isWordChar ascii) == after.any (isWordChar ascii)
  | wordStart ascii => !before.any (isWordChar ascii) && after.any (isWordChar ascii)
  | wordEnd ascii => before.any (isWordChar ascii) && !after.any (isWordChar ascii)
  | wordStartHalf ascii => !before.any (isWordChar ascii)
  | wordEndHalf ascii => !after.any (isWordChar ascii)

/-- **An atom**: takes one character, or looks around. -/
inductive Atom where
  | char (set : CharSet)
  | look (look : Look)
deriving Repr

/-- **A regular expression** over atoms. -/
inductive Regex (α : Type) where
  | empty
  | atom (a : α)
  | seq (first second : Regex α)
  | alt (left right : Regex α)
  /-- At least `lo` times, and at most `hi` times if that is given. -/
  | rep (body : Regex α) (lo : Nat) (hi : Option Nat)
deriving Repr

/-- Replaces every atom. -/
def Regex.map {α β : Type} (f : α → β) : Regex α → Regex β
  | empty => empty
  | atom a => atom (f a)
  | seq r s => seq (r.map f) (s.map f)
  | alt r s => alt (r.map f) (s.map f)
  | rep r lo hi => rep (r.map f) lo hi

/-! ## Matching -/

/-- The set of the indices at which a list of truth values is true. -/
def ofBits (bits : List Bool) : Nat :=
  bits.foldr (fun bit set => 2 * set + bit.toNat) 0

/-- **What an atom allows in a text**: the positions before a character that it takes, or the
    positions where its look holds. -/
inductive Marks where
  | step (positions : Nat)
  | stay (positions : Nat)
deriving Repr

/-- The characters before and after each position of a text, from the start to the end. -/
def neighbours (before : Option Char) : List Char → List (Option Char × Option Char)
  | [] => [(before, none)]
  | c :: rest => (before, some c) :: neighbours (some c) rest

/-- The marks of an atom in a text. -/
def Atom.marks (text : List Char) : Atom → Marks
  | char set => .step (ofBits (text.map set.contains))
  | look l =>
    .stay (ofBits ((neighbours none text).map fun (before, after) => l.holds before after))

/-- **Applies `f` exactly `n` times**, or until nothing changes. -/
def times (f : Nat → Nat) : Nat → Nat → Nat
  | 0, set => set
  | n + 1, set =>
    let next := f set
    if next = set then set else times f n next

/-- **Joins the results of applying `f`** up to `n` times; stops when nothing is added. -/
def upTo (f : Nat → Nat) (n : Nat) (set : Nat) : Nat := times (fun s => s ||| f s) n set

/-- **From starts to ends**: the positions where a match may end that starts in `set`. In a text of
    `size` characters, `size + 1` rounds reach everything that repetition can reach. -/
def Regex.ends (size : Nat) : Regex Marks → Nat → Nat
  | empty, set => set
  | atom (.step positions), set => (set &&& positions) <<< 1
  | atom (.stay positions), set => set &&& positions
  | seq r s, set => s.ends size (r.ends size set)
  | alt r s, set => r.ends size set ||| s.ends size set
  | rep r lo hi, set =>
    let rounds :=
      match hi with
      | some hi => hi - lo
      | none => size + 1
    upTo (r.ends size) rounds (times (r.ends size) lo set)

/-- **Does the expression match** somewhere in the text? Matching may start at any position. -/
def Regex.isMatch (r : Regex Atom) (text : List Char) : Bool :=
  (r.map (Atom.marks text)).ends text.length ((1 <<< (text.length + 1)) - 1) != 0

end Inlay.Pattern
