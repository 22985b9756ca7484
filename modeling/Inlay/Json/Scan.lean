import Inlay.Json.Fault
import Inlay.Number.Numeral
import Inlay.Text.Units

/-!
# Words, numerals and strings of a JSON text

Readers for the parts that have no parts. Each takes its part off the front of the text by recursion
on the text itself, and says precisely where it stops when the text is at fault.

* `skipBlank` drops white space.
* `word` reads the rest of a word whose first letter is known.
* `numeral` reads a number, `string` the inside of a string and its closing quote.
-/

namespace Inlay.Json

open Text (byteLength)

/-- The blanks that may stand between parts. -/
def isBlank (c : Char) : Bool := c == ' ' || c == '\t' || c == '\n' || c == '\r'

/-- The text behind leading blanks. -/
def skipBlank (s : List Char) : List Char := s.dropWhile isBlank

/-- **The rest of a word**, letter by letter. -/
def word : List Char → Reader Unit
  | [], s => .ok ((), s)
  | _ :: _, [] => stop .endInValue []
  | letter :: letters, c :: s =>
    if c = letter then word letters s else stopPast .expectedWord 1 (c :: s)

/-! ## Numerals -/

/-- The longest row of digits at the front, and what follows it. -/
def digits : List Char → List Digit × List Char
  | [] => ([], [])
  | c :: s =>
    match Digit.ofChar? c with
    | some d => let (ds, rest) := digits s; (d :: ds, rest)
    | none => ([], c :: s)

/-- The digits before the point: at least one, and none behind a leading zero. -/
def wholePart : Reader (List Digit)
  | [] => stop .endInValue []
  | c :: s =>
    match Digit.ofChar? c with
    | none => stopPast .invalidNumber 1 (c :: s)
    | some d =>
      let (ds, rest) := digits s
      if d.val = 0 then
        if ds.isEmpty then .ok ([d], s) else stopBefore .invalidNumber s
      else .ok (d :: ds, rest)

/-- The digits behind a point, if there is a point: at least one. -/
def fractionPart : Reader (Option (List Digit))
  | '.' :: s =>
    let (ds, rest) := digits s
    if ds.isEmpty then
      if s.isEmpty then stopBefore .endInValue s else stopBefore .invalidNumber s
    else .ok (some ds, rest)
  | s => .ok (none, s)

/-- The sign of an exponent. -/
def exponentSign : List Char → ExponentSign × List Char
  | '+' :: s => (.plus, s)
  | '-' :: s => (.minus, s)
  | s => (.unsigned, s)

/-- The sign and digits behind the mark of an exponent: at least one digit. -/
def exponentBody (capital : Bool) (s : List Char) : Except Fault (Option Exponent × List Char) :=
  let (sign, s) := exponentSign s
  match s with
  | [] => stop .endInValue []
  | c :: _ =>
    if (Digit.ofChar? c).isSome then
      let (ds, rest) := digits s
      .ok (some ⟨capital, sign, ds⟩, rest)
    else stopPast .invalidNumber 1 s

/-- The exponent, if there is a mark. -/
def exponentPart : Reader (Option Exponent)
  | 'e' :: s => exponentBody false s
  | 'E' :: s => exponentBody true s
  | s => .ok (none, s)

/-- The part of a numeral behind its sign. -/
def unsignedNumeral (negative : Bool) : Reader Numeral := fun s => do
  let (whole, s) ← wholePart s
  let (fraction, s) ← fractionPart s
  let (exponent, s) ← exponentPart s
  return (⟨negative, whole, fraction, exponent⟩, s)

/-- **A numeral**, as it is written. -/
def numeral : Reader Numeral
  | '-' :: s => unsignedNumeral true s
  | s => unsignedNumeral false s

/-! ## Strings -/

/-- The unit that four hexadecimal digits write. -/
def hexFour? (a b c d : Char) : Option UInt16 := do
  let a ← Text.hexValue? a
  let b ← Text.hexValue? b
  let c ← Text.hexValue? c
  let d ← Text.hexValue? d
  return (((a * 16 + b) * 16 + c) * 16 + d).toUInt16

/-- Stops in an escape whose digits should be the next four bytes of `rest`, and are not. -/
def stopInHex {α : Type} (rest : List Char) : Except Fault α :=
  if byteLength rest < 4 then stop .endInString [] else stopPast .invalidEscape 4 rest

/-- The character that a single letter behind a backslash stands for. -/
def escapeLetter? : Char → Option Char
  | '"' => some '"'
  | '\\' => some '\\'
  | '/' => some '/'
  | 'b' => some '\x08'
  | 'f' => some '\x0c'
  | 'n' => some '\n'
  | 'r' => some '\r'
  | 't' => some '\t'
  | _ => none

/-- Stops behind a leading half that no second escape follows. -/
def stopInPair {α : Type} : List Char → Except Fault α
  | [] => stop .endInString []
  | ['\\'] => stop .endInString []
  | '\\' :: 'u' :: rest => stopInHex rest
  | '\\' :: c :: rest => stopPast .unfinishedPair 1 (c :: rest)
  | c :: rest => stopPast .unfinishedPair 1 (c :: rest)

/-- **The inside of a string** up to and including the closing quote; `done` holds the characters
    before it in reverse. -/
def stringFrom (done : List Char) : Reader String
  | [] => stop .endInString []
  | '"' :: s => .ok (String.ofList done.reverse, s)
  | '\\' :: [] => stop .endInString []
  | '\\' :: 'u' :: s =>
    match s with
    | a :: b :: c :: d :: s =>
      match hexFour? a b c d with
      | none => stopInHex (a :: b :: c :: d :: s)
      | some n =>
        if Text.isTrailing n then stop .loneSurrogate s
        else if Text.isLeading n then
          match s with
          | '\\' :: 'u' :: e :: f :: g :: h :: s =>
            match hexFour? e f g h with
            | none => stopInHex (e :: f :: g :: h :: s)
            | some m =>
              if Text.isTrailing m then stringFrom (Text.charOfPair n m :: done) s
              else stop .loneSurrogate s
          | s => stopInPair s
        else stringFrom (Char.ofNat n.toNat :: done) s
    | s => stopInHex s
  | '\\' :: c :: s =>
    match escapeLetter? c with
    | some x => stringFrom (x :: done) s
    | none => stopPast .invalidEscape 1 (c :: s)
  | c :: s =>
    if c.toNat < 0x20 then stopPast .controlCharacter 1 (c :: s) else stringFrom (c :: done) s

/-- **A string**, behind its opening quote. -/
def string : Reader String := stringFrom []

end Inlay.Json
