import Inlay.Code.Node
import Inlay.Json.Value
import Inlay.Text.Class

/-!
# Data as literals

`Literal.embed` writes a JSON value as an expression that evaluates to it.

* A number literal holds a non-negative finite double; a sign is written as an operation, and an
  infinity as the quotient `1 / 0`.
* A key is written plainly if it is an identifier name and quoted otherwise. The key `__proto__` is
  computed, because written plainly or quoted it would set the prototype of the object instead of
  adding a member.
-/

namespace Inlay.Literal

open Code Json

/-- The expression `1 / 0`. -/
def infinity : Node := .node (.binary "/") [.number Double.one, .number Double.zero]

/-- The expression `void 0`, the value of what is not there. -/
def undefined : Node := .node (.unary "void") [.number Double.zero]

/-- **A number as an expression**, through the double nearest to it. -/
def number (n : Numeral) : Node :=
  let d := n.toDouble
  let magnitude := if d.isInfinite then infinity else .number d.magnitude
  if d.isNegative then
    .node (.unary "-") [if d.isInfinite then .node .parens [magnitude] else magnitude]
  else magnitude

/-- **A key of an object literal.** -/
def key (name : String) : Node :=
  if name = "__proto__" then .node .computedKey [.text name]
  else if Text.isName name then .node (.nameKey name) []
  else .node (.textKey name) []

mutual

/-- **A value as an expression.** -/
def embed : Value → Node
  | .null => .node .null []
  | .bool b => .node (.boolean b) []
  | .number n => number n
  | .string s => .text s
  | .array items => .node .list (embedItems items)
  | .object entries => .node .object (embedEntries entries)

/-- The elements of a list literal. -/
def embedItems : List Value → List Node
  | [] => []
  | v :: rest => embed v :: embedItems rest

/-- The members of an object literal. -/
def embedEntries : List (String × Value) → List Node
  | [] => []
  | (k, v) :: rest => .node .property [key k, embed v] :: embedEntries rest

end

/-- A value that may not be there. -/
def embedOption : Option Value → Node
  | some v => embed v
  | none => undefined

/-- **A member read** of the object `object`, by a plain or a quoted key. -/
def member (object : Ident) : Key → Node
  | .name name => .node .member [.reference object, .node (.nameKey name) []]
  | .text value => .node .member [.reference object, .node .computedKey [.text value]]

end Inlay.Literal
