import Inlay.Number.Numeral

/-!
# JSON documents

The value of a JSON text. Numbers stay numerals, and the entries of an object stay in the order of
the text, each key once.

* `Entries.put` adds an entry: a key that is there already keeps its place and takes the new value.
-/

namespace Inlay.Json

/-- **A JSON value.** -/
inductive Value where
  | null
  | bool (value : Bool)
  | number (value : Numeral)
  | string (value : String)
  | array (items : List Value)
  | object (entries : List (String × Value))
deriving Repr, Inhabited

/-- The entries of an object, in order. -/
abbrev Entries := List (String × Value)

namespace Entries

/-- **Adds an entry.** A known key keeps its place and takes the new value, a new one goes last. -/
def put (key : String) (value : Value) : Entries → Entries
  | [] => [(key, value)]
  | (k, v) :: rest => if k = key then (k, value) :: rest else (k, v) :: put key value rest

/-- The value of a key. -/
def get? (entries : Entries) (key : String) : Option Value :=
  (entries.find? fun entry => entry.1 == key).map Prod.snd

/-- The keys, in order. -/
def keys (entries : Entries) : List String := entries.map Prod.fst

end Entries

namespace Value

/-- The entries of an object. -/
def entries? : Value → Option Entries
  | object entries => some entries
  | _ => none

end Value

end Inlay.Json
