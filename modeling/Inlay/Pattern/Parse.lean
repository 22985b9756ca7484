import Inlay.Pattern.Class

/-!
# Reading patterns

`parse?` reads a pattern as a regular expression, or refuses it. Reading goes through the pattern
once, with the flags that hold at each place. Recursion is bounded by the length of the pattern:
every part takes at least one character.

* `groupHead` reads what distinguishes a group, `repetition` what repeats a part.
* `parts` reads parts and their alternatives, up to the end of a group.
* `parse?` reads a whole pattern; it must not be nested deeper than `maxHeight`.
-/

namespace Inlay.Pattern

/-! ## Pieces -/

/-- **An expression under construction**, with the height of its spelling. A change of flags stands
    between the parts too, and is the one thing that cannot be repeated. -/
structure Piece where
  regex : Regex Atom
  height : Nat
  repeatable : Bool := true

namespace Piece

/-- A part without parts. -/
def ofAtom (a : Atom) : Piece := ⟨.atom a, 0, true⟩

/-- A change of flags takes no character. -/
def flagChange : Piece := ⟨.empty, 0, false⟩

/-- A part in parentheses. -/
def group (p : Piece) : Piece := ⟨p.regex, p.height + 1, true⟩

/-- The greatest height among pieces. -/
def maxHeight (ps : List Piece) : Nat := ps.foldl (fun height p => max height p.height) 0

/-- **Parts one after the other**; the last one comes first in the list. -/
def concat : List Piece → Piece
  | [] => ⟨.empty, 0, true⟩
  | [p] => p
  | p :: ps => ⟨ps.foldl (fun r q => .seq q.regex r) p.regex, 1 + maxHeight (p :: ps), true⟩

/-- **Alternatives**; the last one comes first in the list. -/
def alternatives : List Piece → Piece
  | [] => ⟨.empty, 0, true⟩
  | [p] => p
  | p :: ps => ⟨ps.foldl (fun r q => .alt q.regex r) p.regex, 1 + maxHeight (p :: ps), true⟩

/-- **Repeats the last part**; there must be one, and it must be repeatable. -/
def repeatLast (lo : Nat) (hi : Option Nat) : List Piece → Option (List Piece)
  | [] => none
  | p :: ps =>
    if p.repeatable then some (⟨.rep p.regex lo hi, p.height + 1, true⟩ :: ps) else none

end Piece

/-! ## Repetitions -/

/-- A row of digits and what follows it; `bound` is the length of the pattern. -/
def digitRow (flags : Flags) : Nat → List Char → List Char × List Char
  | bound + 1, c :: s =>
    if Text.isAsciiDigit c then
      let (row, rest) := digitRow flags bound (flags.skip s)
      (c :: row, rest)
    else ([], c :: s)
  | _, s => ([], s)

/-- A count: digits, possibly between blanks, below `2 ^ 32`. -/
def count (flags : Flags) (s : List Char) : Option (Nat × List Char) :=
  let s := s.dropWhile Text.isBlank
  let (row, s) := digitRow flags (s.length + 1) s
  let n := Text.decimalValue row
  if row.isEmpty || 0xFFFFFFFF < n then none
  else some (n, flags.skip (s.dropWhile Text.isBlank))

/-- **The bounds of a counted repetition**, behind its brace. -/
def counts (flags : Flags) (s : List Char) : Option ((Nat × Option Nat) × List Char) := do
  let (lo, s) ← count flags (flags.skip s)
  match s with
  | '\x7d' :: s => return ((lo, some lo), s)
  | ',' :: s =>
    match flags.skip s with
    | '\x7d' :: s => return ((lo, none), s)
    | s =>
      let (hi, s) ← count flags s
      match s with
      | '\x7d' :: s => if lo ≤ hi then return ((lo, some hi), s) else none
      | _ => none
  | _ => none

/-- The mark of a repetition that prefers to take less. What is taken does not change which texts
    match, so it is only passed over. -/
def dropLazy : List Char → List Char
  | '?' :: s => s
  | s => s

/-- **A repetition**, if one stands here: its bounds and what follows. -/
def repetition (flags : Flags) : List Char → Option (Option ((Nat × Option Nat) × List Char))
  | '?' :: s => some (some ((0, some 1), dropLazy s))
  | '*' :: s => some (some ((0, none), dropLazy s))
  | '+' :: s => some (some ((1, none), dropLazy s))
  | '\x7b' :: s => do
    let (bounds, s) ← counts flags s
    return some (bounds, dropLazy (flags.skip s))
  | _ => some none

/-! ## Groups -/

/-- Switches the flag of a letter on or off. -/
def Flags.switch (flags : Flags) (on : Bool) : Char → Option Flags
  | 'i' => some { flags with caseless := on }
  | 'm' => some { flags with multiLine := on }
  | 's' => some { flags with dotAll := on }
  | 'R' => some { flags with crlf := on }
  | 'u' => some { flags with unicode := on }
  | 'x' => some { flags with verbose := on }
  | 'U' => some flags
  | _ => none

/-- **What opens a group**: a change of flags up to the end of the enclosing group, or a group with
    its own flags and possibly a name. -/
inductive GroupHead where
  | change (flags : Flags)
  | group (flags : Flags) (name : Option (List Char))

/-- **A list of flags**, up to the colon or parenthesis that ends it. Letters behind a dash are
    switched off. No letter and no dash may be repeated, and a dash must not come last; `seen` holds
    the letters so far, the last one first. -/
def flagList (flags : Flags) (on : Bool) (seen : List Char) :
    List Char → Option (GroupHead × List Char)
  | [] => none
  | c :: s =>
    if c = ':' then
      if seen.head? = some '-' then none else some (.group flags none, s)
    else if c = ')' then
      if seen.isEmpty || seen.head? = some '-' then none else some (.change flags, s)
    else if seen.contains c then none
    else if c = '-' then flagList flags false (c :: seen) s
    else do flagList (← flags.switch on c) on (c :: seen) s

/-- Characters that may start the name of a group. -/
def startsGroupName (c : Char) : Bool := c == '_' || Text.isAlphabetic c

/-- Characters that may continue the name of a group. -/
def continuesGroupName (c : Char) : Bool :=
  c == '_' || c == '.' || c == '[' || c == ']' || Text.isAlphanumeric c

/-- The name of a group, up to its closing angle bracket. -/
def groupName (flags : Flags) (s : List Char) : Option (GroupHead × List Char) :=
  match s.takeWhile (· != '>'), s.dropWhile (· != '>') with
  | c :: name, '>' :: rest =>
    if startsGroupName c && name.all continuesGroupName then
      some (.group flags (some (c :: name)), rest)
    else none
  | _, _ => none

/-- **The head of a group**, behind its parenthesis. Looking ahead or behind is refused. -/
def groupHead (flags : Flags) (s : List Char) : Option (GroupHead × List Char) :=
  match flags.skip s with
  | '?' :: '=' :: _ => none
  | '?' :: '!' :: _ => none
  | '?' :: '<' :: '=' :: _ => none
  | '?' :: '<' :: '!' :: _ => none
  | '?' :: 'P' :: '<' :: s => groupName flags s
  | '?' :: '<' :: s => groupName flags s
  | '?' :: s => flagList flags true [] s
  | s => some (.group flags none, s)

/-- Adds the name of a group to the names so far; a name is given once. -/
def addName (names : List (List Char)) : Option (List Char) → Option (List (List Char))
  | none => some names
  | some name => if names.contains name then none else some (name :: names)

/-! ## Patterns -/

/-- A single part that is no group and no class. -/
def primitive (flags : Flags) : List Char → Option (Atom × List Char)
  | [] => none
  | '\\' :: s => do
    let (p, s) ← escape flags s
    return (← p.atom? flags, s)
  | '.' :: s => (flags.dot).map fun set => (.char set, s)
  | '^' :: s => some (.look flags.startLook, s)
  | '$' :: s => some (.look flags.endLook, s)
  | c :: s => some (.char (flags.fold (.single c)), s)

/-- **Parts and their alternatives**, up to the end of the pattern or the parenthesis that closes
    the group. `items` holds the parts since the last bar, `branches` the alternatives before it,
    both with the last one first; `names` are the names of groups so far. -/
def parts : Nat → Flags → List (List Char) → List Piece → List Piece → List Char →
    Option (Piece × List (List Char) × List Char)
  | 0, _, _, _, _, _ => none
  | bound + 1, flags, names, branches, items, s =>
    match flags.skip s with
    | [] => some (.alternatives (.concat items :: branches), names, [])
    | ')' :: s => some (.alternatives (.concat items :: branches), names, ')' :: s)
    | '|' :: s => parts bound flags names (.concat items :: branches) [] s
    | '(' :: s => do
      match ← groupHead flags s with
      | (.change flags, s) => parts bound flags names branches (.flagChange :: items) s
      | (.group inner name, s) =>
        match ← parts bound inner (← addName names name) [] [] s with
        | (body, names, ')' :: s) => parts bound flags names branches (body.group :: items) s
        | _ => none
    | '[' :: s => do
      let (piece, s) ← bracketClass flags s
      parts bound flags names branches (⟨.atom (.char piece.set), piece.height, true⟩ :: items) s
    | s => do
      match ← repetition flags s with
      | some ((lo, hi), s) => parts bound flags names branches (← Piece.repeatLast lo hi items) s
      | none =>
        let (atom, s) ← primitive flags s
        parts bound flags names branches (.ofAtom atom :: items) s

/-- How high the spelling of a pattern may be. -/
def maxHeight : Nat := 250

/-- **Reads a pattern**, with the flags that hold at its start. -/
def parse? (flags : Flags) (pattern : String) : Option (Regex Atom) := do
  let s := pattern.toList
  match ← parts (s.length + 1) flags [] [] [] s with
  | (piece, _, []) => if piece.height ≤ maxHeight then some piece.regex else none
  | _ => none

end Inlay.Pattern
