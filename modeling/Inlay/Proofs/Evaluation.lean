import Inlay.Code.Node
import Inlay.Json.Value
import Inlay.Proofs.Doubles

/-!
# What code evaluates to

The meaning of the expressions and declarators that data is written with. A **datum** is a value of
the language, an environment keeps one for every name in its context, and `eval` gives the datum of
an expression. Expressions outside of this part of the language have no datum here.

* `Datum`: values of the language; `Datum.ofJson`: a JSON value as a datum.
* `Members.add`: a member named `__proto__` that is not computed sets the prototype and is no own
  member, and a computed one is an own member.
* `eval`: expressions; `execute`: declarators, first to last.
-/

namespace Inlay

open Code Json

/-! ## Values of the language -/

/-- **A datum.** The elements of a list may be holes. An object has a prototype of its own if one
    was set, and its own members in the order in which they are written. -/
inductive Datum where
  | undefined
  | null
  | boolean (value : Bool)
  | number (value : Double)
  | string (value : String)
  | list (elements : List (Option Datum))
  | object (prototype : Option Datum) (own : List (String × Datum))

namespace Datum

mutual

/-- **A JSON value as a datum**: lists without holes, and objects with just their own members. -/
def ofJson : Value → Datum
  | .null => null
  | .bool b => boolean b
  | .number n => number n.toDouble
  | .string s => string s
  | .array items => list (ofItems items)
  | .object entries => object none (ofEntries entries)

def ofItems : List Value → List (Option Datum)
  | [] => []
  | v :: rest => some (ofJson v) :: ofItems rest

def ofEntries : List (String × Value) → List (String × Datum)
  | [] => []
  | (k, v) :: rest => (k, ofJson v) :: ofEntries rest

end

/-- A datum that may not be there. -/
def ofOption : Option Value → Datum
  | some v => ofJson v
  | none => undefined

/-- **A member read**: the own member, or what `missing` gives for a key that is not there. -/
def read (missing : String → Datum) (key : String) : Datum → Option Datum
  | object _ own => some ((own.lookup key).getD (missing key))
  | _ => none

/-- The elements of a list, first to last. A hole counts as undefined. -/
def elements? : Datum → Option (List Datum)
  | list elements => some (elements.map fun d => d.getD undefined)
  | _ => none

/-- What can be the prototype of an object. -/
def isPrototype : Datum → Bool
  | null | list _ | object _ _ => true
  | _ => false

end Datum

/-! ## Object literals -/

/-- The name of a member: written down, as a name or a text, or computed. -/
inductive MemberName where
  | written (name : String)
  | computed (name : String)

/-- An object while its members are added. -/
structure Members where
  prototype : Option Datum
  own : List (String × Datum)

namespace Members

/-- No members yet. -/
def empty : Members := ⟨none, []⟩

/-- Sets an own member. A key that is there already keeps its place. -/
def put (key : String) (d : Datum) : List (String × Datum) → List (String × Datum)
  | [] => [(key, d)]
  | (k, other) :: rest => if k = key then (k, d) :: rest else (k, other) :: put key d rest

/-- **Adds a member.** A written `__proto__` sets the prototype, if its datum can be one, and is no
    own member. -/
def add (m : Members) (name : MemberName) (d : Datum) : Members :=
  match name with
  | .written name =>
    if name = "__proto__" then
      if d.isPrototype then { m with prototype := some d } else m
    else { m with own := put name d m.own }
  | .computed name => { m with own := put name d m.own }

/-- A new key goes last. -/
theorem put_of_not_mem {key : String} {own : List (String × Datum)} (d : Datum)
    (h : key ∉ own.map Prod.fst) : put key d own = own ++ [(key, d)] := by
  induction own with
  | nil => rfl
  | cons entry rest ih =>
      rw [List.map_cons, List.mem_cons, not_or] at h
      rw [put, if_neg (Ne.symm h.1), ih h.2]
      rfl

end Members

/-! ## Expressions -/

/-- **Names in their contexts.** Names of different contexts are different. -/
abbrev Name := String × Nat

/-- The name of an identifier: neither its span nor its mark tells it apart. -/
def Code.Ident.key (x : Ident) : Name := (x.name, x.context)

/-- **Bindings** of names. In an environment the latest comes first. -/
abbrev Bindings := List (Name × Datum)

/-- A unary operation. -/
def unaryOperation (operator : String) (d : Datum) : Option Datum :=
  if operator = "void" then some .undefined
  else if operator = "-" then
    match d with
    | .number x => some (.number x.opposite)
    | _ => none
  else none

/-- A binary operation. -/
def binaryOperation (operator : String) (l r : Datum) : Option Datum :=
  if operator = "/" then
    match l, r with
    | .number x, .number y => some (.number (x.quotient y))
    | _, _ => none
  else none

/-- The text of a datum that is one. -/
def Datum.text? : Datum → Option String
  | string s => some s
  | _ => none

section

variable (missing : String → Datum) (env : Bindings)

mutual

/-- **The datum of an expression.** -/
def eval : Node → Option Datum
  | .node .null [] => some .null
  | .node (.boolean b) [] => some (.boolean b)
  | .node (.number d) [] => some (.number d)
  | .node (.text s) [] => some (.string s)
  | .node (.reference x) [] => env.lookup x.key
  | .node .list elements => do return .list (← evalElements elements)
  | .node .object members => do
    let m ← evalMembers members .empty
    return .object m.prototype m.own
  | .node (.unary operator) [operand] => do unaryOperation operator (← eval operand)
  | .node (.binary operator) [l, r] => do binaryOperation operator (← eval l) (← eval r)
  | .node .parens [inner] => eval inner
  | .node .member [object, key] => do
    let d ← eval object
    match ← evalName key with
    | .written name => d.read missing name
    | .computed name => d.read missing name
  | _ => none

/-- The elements of a list literal. -/
def evalElements : List Node → Option (List (Option Datum))
  | [] => some []
  | .node .absent [] :: rest => do return none :: (← evalElements rest)
  | n :: rest => do
    let d ← eval n
    return some d :: (← evalElements rest)

/-- The members of an object literal, added to those before. -/
def evalMembers : List Node → Members → Option Members
  | [], m => some m
  | .node .property [key, value] :: rest, m => do
    let name ← evalName key
    let d ← eval value
    evalMembers rest (m.add name d)
  | _ :: _, _ => none

/-- The name of a member. -/
def evalName : Node → Option MemberName
  | .node (.nameKey name) [] => some (.written name)
  | .node (.textKey name) [] => some (.written name)
  | .node .computedKey [inner] => do return .computed (← (← eval inner).text?)
  | _ => none

end

end

/-- **Executes declarators**, first to last: the bindings they make, in order. Each initialiser is
    evaluated where the names before it are bound. -/
def execute (missing : String → Datum) (env : Bindings) : List Node → Option Bindings
  | [] => some []
  | .declarator _ (.binding target) init :: rest => do
    let d ← eval missing env init
    return (target.ident.key, d) :: (← execute missing ((target.ident.key, d) :: env) rest)
  | _ :: _ => none

end Inlay
