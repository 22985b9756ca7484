import Inlay.Json.Scan
import Inlay.Json.Value

/-!
# Reading JSON documents

`parse` reads a whole text as one value. Arrays and objects may be nested 127 deep: the reader of a
value is defined by recursion on the levels that are left, and the loops over elements and entries
take the reader of the level below as an argument.

* `nextElement` and `nextEntry` decide whether a list or an object goes on.
* `value` reads one value, `parse` a whole text.
* `numberKey`: an object that starts with this key stands for a number.
-/

namespace Inlay.Json

open Text (byteLength)

/-! ## Lists and objects -/

/-- **Does a list go on?** Behind the opening bracket (`first`) or an element; when it does not, the
    closing bracket is left in place. -/
def nextElement (first : Bool) : Reader Bool := fun s =>
  match skipBlank s with
  | [] => stopBefore .endInList []
  | ']' :: s => .ok (false, ']' :: s)
  | c :: s =>
    if first then .ok (true, c :: s)
    else if c = ',' then
      match skipBlank s with
      | [] => stopBefore .endInValue []
      | ']' :: s => stopBefore .trailingComma (']' :: s)
      | s => .ok (true, s)
    else stopBefore .expectedListEnd (c :: s)

/-- **Does an object go on?** Behind the opening brace (`first`) or an entry; when it does, the key
    is read, and when it does not, the closing brace is left in place. -/
def nextKey (first : Bool) : Reader (Option String) := fun s =>
  match skipBlank s with
  | [] => stopBefore .endInObject []
  | '\x7d' :: s => .ok (none, '\x7d' :: s)
  | '"' :: s =>
    if first then do
      let (key, s) ← string s
      return (some key, s)
    else stopBefore .expectedObjectEnd ('"' :: s)
  | c :: s =>
    if first then stopBefore .keyNotString (c :: s)
    else if c = ',' then
      match skipBlank s with
      | [] => stopBefore .endInValue []
      | '\x7d' :: s => stopBefore .trailingComma ('\x7d' :: s)
      | '"' :: s => do
        let (key, s) ← string s
        return (some key, s)
      | s => stopBefore .keyNotString s
    else stopBefore .expectedObjectEnd (c :: s)

/-- The colon between a key and its value. -/
def colon : Reader Unit := fun s =>
  match skipBlank s with
  | [] => stopBefore .endInObject []
  | ':' :: s => .ok ((), s)
  | s => stopBefore .expectedColon s

/-- The closing bracket of a list that may hold nothing more. -/
def endList : Reader Unit := fun s =>
  match skipBlank s with
  | [] => stopBefore .endInList []
  | ']' :: s => .ok ((), s)
  | ',' :: s =>
    match skipBlank s with
    | ']' :: s => stopBefore .trailingComma (']' :: s)
    | s => stopBefore .trailingCharacters s
  | s => stopBefore .trailingCharacters s

/-- The closing brace of an object that may hold nothing more. -/
def endObject : Reader Unit := fun s =>
  match skipBlank s with
  | [] => stopBefore .endInObject []
  | '\x7d' :: s => .ok ((), s)
  | ',' :: s => stopBefore .trailingComma (',' :: s)
  | s => stopBefore .trailingCharacters s

/-- **The elements of a list**, with `item` reading one; `done` holds those before, in reverse.
    Every element takes at least one character, so a `bound` of the length of the text is never
    used up. -/
def elements (item : Reader Value) (bound : Nat) (done : List Value) : Reader (List Value) :=
  fun s => do
    let (more, s) ← nextElement done.isEmpty s
    if more then
      let (v, s) ← item s
      match bound with
      | 0 => stop .tooDeep s
      | bound + 1 => elements item bound (v :: done) s
    else
      let ((), s) ← endList s
      return (done.reverse, s)

/-- **The entries of an object** behind its first ones, with `item` reading a value. -/
def entries (item : Reader Value) (bound : Nat) (done : Entries) : Reader Entries :=
  fun s => do
    match ← nextKey false s with
    | (some key, s) =>
      let ((), s) ← colon s
      let (v, s) ← item s
      match bound with
      | 0 => stop .tooDeep s
      | bound + 1 => entries item bound (done.put key v) s
    | (none, s) =>
      let ((), s) ← endObject s
      return (done, s)

/-! ## Numbers inside strings -/

/-- **The key of a number**: an object that starts with it holds a number written as a string. -/
def numberKey : String := "$serde_json::private::Number"

/-- A text that is one numeral and nothing else. What is left behind the place where reading stopped
    is at fault before anything else is. -/
def parseNumeral (text : List Char) : Except Error Numeral :=
  let outcome :=
    match text with
    | [] => stopBefore .endInValue []
    | c :: _ =>
      if c = '-' || (Digit.ofChar? c).isSome then numeral text
      else stopBefore .invalidNumber text
  match outcome with
  | .ok (n, []) => .ok n
  | .ok (_, rest) => .error (Fault.locate text (.here .invalidNumber (byteLength rest) 1))
  | .error (.here cause pending ahead) =>
    .error <| Fault.locate text <|
      if pending = 0 then .here cause pending ahead else .here .invalidNumber pending 1
  | .error (.inner error) => .error error

/-- What a scalar was found to be; its position is behind it. A list or an object is named but not
    entered. -/
def mistyped {α : Type} (wanted : String) (s : List Char) : Except Fault α :=
  match s with
  | [] => stopBefore .endInValue []
  | 'n' :: s => do
    let ((), s) ← word ['u', 'l', 'l'] s
    stop (.mistyped .null wanted) s
  | 't' :: s => do
    let ((), s) ← word ['r', 'u', 'e'] s
    stop (.mistyped (.bool true) wanted) s
  | 'f' :: s => do
    let ((), s) ← word ['a', 'l', 's', 'e'] s
    stop (.mistyped (.bool false) wanted) s
  | '"' :: s => do
    let (text, s) ← string s
    stop (.mistyped (.string text) wanted) s
  | '[' :: s => stop (.mistyped .sequence wanted) ('[' :: s)
  | '\x7b' :: s => stop (.mistyped .map wanted) ('\x7b' :: s)
  | c :: s =>
    if c = '-' || (Digit.ofChar? c).isSome then do
      let (n, s) ← numeral (c :: s)
      stop (.mistyped (if n.isWord then .integer n.toInt else .number) wanted) s
    else stopBefore .expectedValue (c :: s)

/-- The number of an object that starts with `numberKey`, behind that key. -/
def quotedNumber : Reader Numeral := fun s => do
  let ((), s) ← colon s
  match skipBlank s with
  | '"' :: s =>
    let (text, s) ← string s
    match parseNumeral text.toList with
    | .ok n =>
      let ((), s) ← endObject s
      return (n, s)
    | .error e => .error (.inner e)
  | s => mistyped "string containing a number" s

/-! ## Values -/

/-- A whole list, behind its bracket. -/
def list (bound : Nat) (item : Reader Value) : Reader Value := fun s => do
  let (items, s) ← elements item bound [] s
  return (.array items, s)

/-- A whole object, behind its brace. -/
def object (bound : Nat) (item : Reader Value) : Reader Value := fun s => do
  match ← nextKey true s with
  | (none, s) =>
    let ((), s) ← endObject s
    return (.object [], s)
  | (some key, s) =>
    if key = numberKey then
      let (n, s) ← quotedNumber s
      return (.number n.stored, s)
    else
      let ((), s) ← colon s
      let (v, s) ← item s
      let (es, s) ← entries item bound [(key, v)] s
      return (.object es, s)

/-- **A value** with at most `levels` lists and objects around one another; no list or object has
    more than `bound` members. -/
def value (bound levels : Nat) : Reader Value := fun s =>
  match skipBlank s with
  | [] => stopBefore .endInValue []
  | 'n' :: s => do
    let ((), s) ← word ['u', 'l', 'l'] s
    return (.null, s)
  | 't' :: s => do
    let ((), s) ← word ['r', 'u', 'e'] s
    return (.bool true, s)
  | 'f' :: s => do
    let ((), s) ← word ['a', 'l', 's', 'e'] s
    return (.bool false, s)
  | '"' :: s => do
    let (text, s) ← string s
    return (.string text, s)
  | '[' :: s =>
    match levels with
    | 0 => stopBefore .tooDeep ('[' :: s)
    | levels + 1 => list bound (value bound levels) s
  | '\x7b' :: s =>
    match levels with
    | 0 => stopBefore .tooDeep ('\x7b' :: s)
    | levels + 1 => object bound (value bound levels) s
  | c :: s =>
    if c = '-' || (Digit.ofChar? c).isSome then do
      let (n, s) ← numeral (c :: s)
      return (.number n.stored, s)
    else stopBefore .expectedValue (c :: s)

/-- How many lists and objects may stand around one another. -/
def maxLevels : Nat := 127

/-- Nothing but blanks may follow. -/
def finish {α : Type} : α × List Char → Except Fault α
  | (a, s) =>
    match skipBlank s with
    | [] => .ok a
    | s => stopBefore .trailingCharacters s

/-- **Reads a whole text** with a reader. -/
def parseWith {α : Type} (reader : Reader α) (text : List Char) : Except Error α :=
  match reader text >>= finish with
  | .ok v => .ok v
  | .error fault => .error (fault.locate text)

/-- **Reads a whole text as one value.** -/
def parse (text : String) : Except Error Value :=
  parseWith (value text.toList.length maxLevels) text.toList

end Inlay.Json
