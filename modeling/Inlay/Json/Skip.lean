import Inlay.Json.Read

/-!
# Passing over a value

A value that nobody asks for is **passed over** without being built, and without any limit on its
depth: the lists and objects that are open are kept in a stack. Passing over is a little laxer than
reading (surrogates need no partner) and names some faults differently.

* `skipValue` passes over one value.
-/

namespace Inlay.Json

/-- What encloses a value. -/
inductive Enclosure where
  | list
  | object
deriving DecidableEq, Repr

/-- **The inside of a string**, passed over. -/
def skipString : Reader Unit
  | [] => stop .endInString []
  | '"' :: s => .ok ((), s)
  | '\\' :: [] => stop .endInString []
  | '\\' :: 'u' :: s =>
    match s with
    | a :: b :: c :: d :: s =>
      if (hexFour? a b c d).isSome then skipString s else stopInHex (a :: b :: c :: d :: s)
    | s => stopInHex s
  | '\\' :: c :: s =>
    if (escapeLetter? c).isSome then skipString s else stopPast .invalidEscape 1 (c :: s)
  | c :: s => if c.toNat < 0x20 then stop .controlCharacter (c :: s) else skipString s

/-- **A numeral**, passed over: every fault in it is an invalid number. -/
def skipNumeral : Reader Unit := fun s =>
  match numeral s with
  | .ok (_, s) => .ok ((), s)
  | .error (.here _ pending ahead) => .error (.here .invalidNumber pending ahead)
  | .error fault => .error fault

/-- The key and the colon before a value, inside an object. -/
def skipKey : Reader Unit := fun s =>
  match skipBlank s with
  | [] => stopBefore .endInObject []
  | '"' :: s => do
    let ((), s) ← skipString s
    colon s
  | s => stopBefore .keyNotString s

/-- **Behind a value** (or, when `opened`, behind an opening bracket): closes enclosures as long as
    they end here. The enclosures still open are left, with the text up to the next value; none
    are left when everything is closed. -/
def skipClosing (opened : Bool) : List Enclosure → Reader (List Enclosure)
  | [], s => .ok ([], s)
  | .list :: outer, s =>
    match skipBlank s with
    | [] => stopBefore .endInList []
    | ']' :: s => skipClosing false outer s
    | c :: s =>
      if opened then .ok (.list :: outer, c :: s)
      else if c = ',' then .ok (.list :: outer, s)
      else stopBefore .expectedListEnd (c :: s)
  | .object :: outer, s =>
    let lead (s : List Char) : Except Fault (List Enclosure × List Char) := do
      let ((), s) ← skipKey s
      return (.object :: outer, s)
    match skipBlank s with
    | [] => stopBefore .endInObject []
    | '\x7d' :: s => skipClosing false outer s
    | c :: s =>
      if opened then lead (c :: s)
      else if c = ',' then lead s
      else stopBefore .expectedObjectEnd (c :: s)

/-- A scalar, passed over, or the bracket that opens an enclosure. -/
def skipHead : Reader (Option Enclosure) := fun s =>
  match skipBlank s with
  | [] => stopBefore .endInValue []
  | 'n' :: s => do
    let ((), s) ← word ['u', 'l', 'l'] s
    return (none, s)
  | 't' :: s => do
    let ((), s) ← word ['r', 'u', 'e'] s
    return (none, s)
  | 'f' :: s => do
    let ((), s) ← word ['a', 'l', 's', 'e'] s
    return (none, s)
  | '"' :: s => do
    let ((), s) ← skipString s
    return (none, s)
  | '[' :: s => .ok (some .list, s)
  | '\x7b' :: s => .ok (some .object, s)
  | c :: s =>
    if c = '-' || (Digit.ofChar? c).isSome then do
      let ((), s) ← skipNumeral (c :: s)
      return (none, s)
    else stopBefore .expectedValue (c :: s)

/-- **Passes over values** until no enclosure of `stack` is open. Each round consumes the head of a
    value, so a `bound` of the length of the text is never used up. -/
def skipValues (bound : Nat) (stack : List Enclosure) : Reader Unit := fun s => do
  let (head, s) ← skipHead s
  let (stack, s) ← skipClosing head.isSome (head.toList ++ stack) s
  if stack.isEmpty then return ((), s)
  else
    match bound with
    | 0 => stop .tooDeep s
    | bound + 1 => skipValues bound stack s

/-- **Passes over one value** of at most `bound` parts. -/
def skipValue (bound : Nat) : Reader Unit := skipValues bound []

end Inlay.Json
