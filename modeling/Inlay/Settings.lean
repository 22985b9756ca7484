import Inlay.Json.Skip
import Inlay.Text.Class

/-!
# Settings

The settings are two optional texts: the **pattern** that names of data modules match, and the
**flags** of that pattern. They are written as a JSON object with the fields `match` and
`matchFlags`; other fields are passed over. A list of the two values in this order is accepted too,
and nothing at all, or `null`, leaves both out.

* `Settings.parse` reads settings.
-/

namespace Inlay

/-- **Settings**: a pattern and its flags. -/
structure Settings where
  pattern : Option String := none
  flags : Option String := none
deriving DecidableEq, Repr, Inhabited

namespace Settings

open Json

/-- The value of a field: a string, or `null` for none. -/
def fieldValue : Reader (Option String) := fun s =>
  match skipBlank s with
  | 'n' :: s => do
    let ((), s) ← word ['u', 'l', 'l'] s
    return (none, s)
  | '"' :: s => do
    let (text, s) ← string s
    return (some text, s)
  | s => mistyped "a string" s

/-- The fields read so far: `none` for a field that has not occurred. -/
structure Fields where
  pattern : Option (Option String) := none
  flags : Option (Option String) := none

/-- The settings that fields give; a field that did not occur is left out. -/
def Fields.settings (fields : Fields) : Settings :=
  ⟨fields.pattern.getD none, fields.flags.getD none⟩

/-- Stops at a field that occurs again. Its place is behind the blanks that follow the key, and
    behind a closing brace if one stands there. -/
def stopAtRepeated {α : Type} (name : String) (s : List Char) : Except Fault α :=
  match skipBlank s with
  | '\x7d' :: s => stop (.repeatedField name) s
  | s => stop (.repeatedField name) s

/-- **The value of a field**, behind its key. The field must not have occurred before. -/
def readOnce (name : String) (field : Option (Option String)) : Reader (Option String) := fun s =>
  if field.isSome then stopAtRepeated name s
  else do
    let ((), s) ← colon s
    fieldValue s

/-- **A member of an object**, behind its key, in a text of `size` characters: one of the fields, or
    something else, whose value is passed over. -/
def readMember (size : Nat) (fields : Fields) (key : String) : Reader Fields := fun s =>
  if key = "match" then do
    let (v, s) ← readOnce key fields.pattern s
    return (⟨some v, fields.flags⟩, s)
  else if key = "matchFlags" then do
    let (v, s) ← readOnce key fields.flags s
    return (⟨fields.pattern, some v⟩, s)
  else do
    let ((), s) ← colon s
    let ((), s) ← skipValue size s
    return (fields, s)

/-- **The fields of an object**, behind its brace (`first`) or behind an entry, in a text of `size`
    characters. Every entry takes at least one of them, so a `bound` of `size` is never used up. -/
def readFields (size bound : Nat) (first : Bool) (fields : Fields) : Reader Fields := fun s => do
  match ← nextKey first s with
  | (none, s) =>
    let ((), s) ← endObject s
    return (fields, s)
  | (some key, s) =>
    let (fields, s) ← readMember size fields key s
    match bound with
    | 0 => stop .tooDeep s
    | bound + 1 => readFields size bound false fields s

/-- Stops at the end of a list of fewer than two elements. -/
def stopAtLength {α : Type} (length : Nat) (s : List Char) : Except Fault α := do
  let ((), s) ← endList s
  stop (.wrongLength length "struct Config with 2 elements") s

/-- **Settings as a list**, behind its bracket: exactly two elements. -/
def readList : Reader Settings := fun s => do
  let (more, s) ← nextElement true s
  if !more then stopAtLength 0 s
  else
    let (pattern, s) ← fieldValue s
    let (more, s) ← nextElement false s
    if !more then stopAtLength 1 s
    else
      let (flags, s) ← fieldValue s
      let ((), s) ← endList s
      return (⟨pattern, flags⟩, s)

/-- **Settings** as an object, as a list or as `null`, in a text of `size` characters. -/
def read (size : Nat) : Reader Settings := fun s =>
  match skipBlank s with
  | 'n' :: s => do
    let ((), s) ← word ['u', 'l', 'l'] s
    return (⟨none, none⟩, s)
  | '\x7b' :: s => do
    let (fields, s) ← readFields size size true ⟨none, none⟩ s
    return (fields.settings, s)
  | '[' :: s => readList s
  | s => mistyped "struct Config" s

/-- **Reads settings.** A text of blanks (of any script) gives none. -/
def parse (text : String) : Except Error Settings :=
  if text.toList.all Text.isBlank then .ok ⟨none, none⟩
  else parseWith (read text.toList.length) text.toList

end Settings

end Inlay
