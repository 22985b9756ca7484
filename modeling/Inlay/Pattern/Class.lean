import Inlay.Pattern.Escape

/-!
# Classes in brackets

A class lists characters, ranges, escapes and other classes; `&&`, `--` and `~~` combine what
stands on their two sides, from left to right. Recursion is bounded by the length of the pattern:
every item takes at least one character.

* `classItems` reads the items of a class up to its closing bracket.
* `bracketClass` reads a whole class.
-/

namespace Inlay.Pattern

/-- **A set under construction**, with the height of its spelling. -/
structure SetPiece where
  set : CharSet
  height : Nat

namespace SetPiece

/-- One character. -/
def single (c : Char) : SetPiece := ⟨.single c, 0⟩

/-- The union of the items of a class; the last item comes first in the list. -/
def ofItems : List SetPiece → SetPiece
  | [] => ⟨.empty, 0⟩
  | [item] => item
  | items =>
    ⟨items.foldr (fun item set => .union set item.set) .empty,
      1 + items.foldl (fun height item => max height item.height) 0⟩

/-- A class in brackets, closed under case and complemented as asked. -/
def bracket? (flags : Flags) (negated : Bool) (inner : SetPiece) : Option SetPiece :=
  (flags.foldAndNegate negated inner.set).map fun set => ⟨set, inner.height + 1⟩

end SetPiece

/-- The operations on sets inside a class. -/
inductive SetOperator where
  | inter | diff | symmDiff
deriving DecidableEq, Repr

/-- The set that an operation makes of two. -/
def SetOperator.apply : SetOperator → CharSet → CharSet → CharSet
  | inter => .inter
  | diff => .diff
  | symmDiff => .symmDiff

/-- **Applies the operation that is still open** to what stands on its right. Both sides are closed
    under case first. -/
def applyOpen (flags : Flags) (open? : Option (SetOperator × SetPiece)) (right : SetPiece) :
    SetPiece :=
  match open? with
  | none => right
  | some (operator, left) =>
    ⟨operator.apply (flags.fold left.set) (flags.fold right.set),
      1 + max left.height right.height⟩

/-- **An ASCII class** such as `[:alpha:]` or `[:^alpha:]`, behind its first bracket: whether it is
    negated, its ranges, and what follows. -/
def asciiClass? : List Char → Option (Bool × List (Char × Char) × List Char)
  | ':' :: s => do
    let (negated, s) :=
      match s with
      | '^' :: s => (true, s)
      | s => (false, s)
    match s.dropWhile (· != ':') with
    | ':' :: ']' :: rest =>
      let ranges ← asciiRanges? (String.ofList (s.takeWhile (· != ':')))
      return (negated, ranges, rest)
    | _ => none
  | _ => none

/-- The dashes that stand first in a class are items; `bound` is the length of the pattern. -/
def leadingDashes (flags : Flags) (items : List SetPiece) :
    Nat → List Char → List SetPiece × List Char
  | bound + 1, '-' :: s => leadingDashes flags (.single '-' :: items) bound (flags.skip s)
  | _, s => (items, s)

/-- **The start of a class**, behind its bracket: a caret negates it, then dashes, or else a closing
    bracket, are plain items. -/
def classStart (flags : Flags) (s : List Char) : Bool × List SetPiece × List Char :=
  let (negated, s) :=
    match flags.skip s with
    | '^' :: s => (true, flags.skip s)
    | s => (false, s)
  match leadingDashes flags [] s.length s with
  | ([], ']' :: s) => (negated, [.single ']'], flags.skip s)
  | (items, s) => (negated, items, s)

/-- A character or an escape inside a class. -/
def classPrimitive (flags : Flags) : List Char → Option (Primitive × List Char)
  | [] => none
  | '\\' :: s => escape flags s
  | c :: s => some (.literal c false, s)

/-- **A range or a single item.** A dash before the closing bracket or before another dash makes no
    range. -/
def classRange (flags : Flags) (s : List Char) : Option (SetPiece × List Char) := do
  let (first, s) ← classPrimitive flags s
  let single (s : List Char) : Option (SetPiece × List Char) := do
    return (⟨← first.set? flags, 0⟩, s)
  match flags.skip s with
  | '-' :: rest =>
    match flags.skip rest with
    | [] => none
    | ']' :: _ => single ('-' :: rest)
    | '-' :: _ => single ('-' :: rest)
    | rest =>
      let (last, rest) ← classPrimitive flags rest
      let lo ← first.member? flags
      let hi ← last.member? flags
      if lo ≤ hi then return (⟨.range lo hi, 0⟩, rest) else none
  | s => single s

/-- **The items of a class** up to and including its closing bracket, with the operation that is
    still open and the items on its right so far. -/
def classItems (flags : Flags) :
    Nat → Option (SetOperator × SetPiece) → List SetPiece → List Char →
      Option (SetPiece × List Char)
  | 0, _, _, _ => none
  | bound + 1, open?, items, s =>
    let operate (operator : SetOperator) (s : List Char) : Option (SetPiece × List Char) :=
      classItems flags bound (some (operator, applyOpen flags open? (.ofItems items))) [] s
    match flags.skip s with
    | [] => none
    | ']' :: s => some (applyOpen flags open? (.ofItems items), s)
    | '[' :: s =>
      match asciiClass? s with
      | some (negated, ranges, s) => do
        let set ← flags.foldAndNegate negated (.ofRanges ranges)
        classItems flags bound open? (⟨set, 0⟩ :: items) s
      | none => do
        let (negated, start, s) := classStart flags s
        let (inner, s) ← classItems flags bound none start s
        classItems flags bound open? ((← inner.bracket? flags negated) :: items) s
    | '&' :: '&' :: s => operate .inter s
    | '-' :: '-' :: s => operate .diff s
    | '~' :: '~' :: s => operate .symmDiff s
    | s => do
      let (item, s) ← classRange flags s
      classItems flags bound open? (item :: items) s

/-- **A class**, behind its opening bracket. -/
def bracketClass (flags : Flags) (s : List Char) : Option (SetPiece × List Char) := do
  let (negated, start, s) := classStart flags s
  let (inner, s) ← classItems flags (s.length + 1) none start s
  return (← inner.bracket? flags negated, s)

end Inlay.Pattern
