import Inlay.Text.Bytes
import Inlay.Text.Quoted

/-!
# Faults of a JSON text

A **fault** is what stops a reader: a cause and a place. While a text is being read, a place is
known by the number of bytes that are still to come, so a reader needs nothing but the rest of the
text; `Fault.locate` turns it into a line and a column once the whole text is at hand.

* `Cause.message` is the wording of each cause.
* `placeAt` is the line and column behind the first `n` bytes of a text.
-/

namespace Inlay.Json

open Text (byteLength)

/-- What a value was found to be, where something else was wanted. -/
inductive Found where
  | null
  | bool (value : Bool)
  | integer (value : Int)
  | number
  | string (value : String)
  | sequence
  | map
deriving DecidableEq, Repr

/-- How a found value is named. -/
def Found.describe : Found → String
  | null => "null"
  | bool b => "boolean `" ++ (if b then "true" else "false") ++ "`"
  | integer n => "integer `" ++ n.repr ++ "`"
  | number => "number"
  | string s => "string " ++ Text.quoteString s
  | sequence => "sequence"
  | map => "map"

/-- **Why a text is refused.** -/
inductive Cause where
  | endInValue | endInString | endInList | endInObject
  | expectedWord | expectedValue | expectedColon | expectedListEnd | expectedObjectEnd
  | invalidNumber | invalidEscape | controlCharacter | loneSurrogate | unfinishedPair
  | keyNotString | trailingComma | trailingCharacters | tooDeep
  | mistyped (found : Found) (wanted : String)
  | repeatedField (name : String)
  | wrongLength (length : Nat) (wanted : String)
deriving DecidableEq, Repr

/-- **The wording of a cause.** -/
def Cause.message : Cause → String
  | endInValue => "EOF while parsing a value"
  | endInString => "EOF while parsing a string"
  | endInList => "EOF while parsing a list"
  | endInObject => "EOF while parsing an object"
  | expectedWord => "expected ident"
  | expectedValue => "expected value"
  | expectedColon => "expected `:`"
  | expectedListEnd => "expected `,` or `]`"
  | expectedObjectEnd => "expected `,` or `\x7d`"
  | invalidNumber => "invalid number"
  | invalidEscape => "invalid escape"
  | controlCharacter => "control character (\\u0000-\\u001F) found while parsing a string"
  | loneSurrogate => "lone leading surrogate in hex escape"
  | unfinishedPair => "unexpected end of hex escape"
  | keyNotString => "key must be a string"
  | trailingComma => "trailing comma"
  | trailingCharacters => "trailing characters"
  | tooDeep => "recursion limit exceeded"
  | mistyped found wanted => "invalid type: " ++ found.describe ++ ", expected " ++ wanted
  | repeatedField name => "duplicate field `" ++ name ++ "`"
  | wrongLength length wanted => "invalid length " ++ length.repr ++ ", expected " ++ wanted

/-! ## Places -/

/-- **A refusal**: a cause with the line (from 1) and the column (in bytes) of its place. -/
structure Error where
  cause : Cause
  line : Nat
  column : Nat
deriving DecidableEq, Repr

/-- The text of a refusal. -/
def Error.message (e : Error) : String :=
  e.cause.message ++ " at line " ++ e.line.repr ++ " column " ++ e.column.repr

/-- **Line and column behind the first `n` bytes**: the line counts line feeds among them, the
    column the bytes behind the last one. A multi-byte character may be cut. -/
def placeAt (line column n : Nat) : List Char → Nat × Nat
  | [] => (line, column)
  | c :: rest =>
    if n = 0 then (line, column)
    else if c = '\n' then placeAt (line + 1) 0 (n - 1) rest
    else placeAt line (column + min c.utf8Size n) (n - c.utf8Size) rest

/-- **A fault** in the text that is being read, or one that has its place in another text already.
    -/
inductive Fault where
  /-- `pending` bytes had not been consumed, and the place is `ahead` bytes into those. -/
  | here (cause : Cause) (pending ahead : Nat)
  /-- A fault of a text inside the text. -/
  | inner (error : Error)
deriving DecidableEq, Repr

/-- **The refusal of `text`** that a fault stands for; a place is never behind the end. -/
def Fault.locate (text : List Char) : Fault → Error
  | here cause pending ahead =>
    let place := placeAt 1 0 (byteLength text - (pending - ahead)) text
    ⟨cause, place.1, place.2⟩
  | inner error => error

/-! ## Readers -/

/-- **A reader** takes a part off the front of a text and leaves the rest. -/
abbrev Reader (α : Type) := List Char → Except Fault (α × List Char)

/-- Stops where everything before `rest` is consumed. -/
def stop {α : Type} (cause : Cause) (rest : List Char) : Except Fault α :=
  .error (.here cause (byteLength rest) 0)

/-- Stops before `rest`, at the place of its first byte. -/
def stopBefore {α : Type} (cause : Cause) (rest : List Char) : Except Fault α :=
  .error (.here cause (byteLength rest) 1)

/-- Stops where also the first `count` bytes of `rest` are consumed. -/
def stopPast {α : Type} (cause : Cause) (count : Nat) (rest : List Char) : Except Fault α :=
  .error (.here cause (byteLength rest - count) 0)

end Inlay.Json
