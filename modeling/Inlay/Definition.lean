import Inlay.Failure
import Inlay.Literal
import Inlay.Shape
import Inlay.Text.Units

/-!
# Definitions that replace a declaration

A **definition** gives a name its value. `Definition.ofShape` writes the data of a module as the
definitions that a shape asks for, one for each name it binds, in the order of the shape.

* `elementAt?` and `elementsFrom` are the positions of lists and strings; a string counts UTF-16
  units.
* `Definition.declarator` and `Definition.constant` are the code of a definition.
-/

namespace Inlay

open Code Json

/-! ## Positions -/

/-- The value at a position of a list or a string. -/
def elementAt? (value : Value) (index : Nat) : Option Value :=
  match value with
  | .array items => items[index]?
  | .string s => (Text.unitAt? s index).map .string
  | _ => none

/-- The values from a position on, of a list or a string. -/
def elementsFrom (value : Value) (index : Nat) : Value :=
  match value with
  | .array items => .array (items.drop index)
  | .string s => .string (Text.dropUnits s index)
  | _ => .array []

/-- A list or a string. -/
def hasPositions : Value → Bool
  | .array _ | .string _ => true
  | _ => false

/-! ## Definitions -/

/-- **A definition** of one name. -/
structure Definition where
  target : Binding
  value : Node
deriving Repr

namespace Definition

/-- A definition as a declarator. -/
def declarator (d : Definition) : Node := .declarator false (.binding d.target) d.value

/-- The head of a declaration of constants that no source text stands for. -/
def constantHead : DeclarationHead := ⟨.constant, false, 0, .none⟩

/-- A definition as a declaration of its own. -/
def constant (d : Definition) : Node := .node (.declaration constantHead) [d.declarator]

/-- Every pick takes the value of its key out of the data. -/
def ofPicks (picks : List Pick) (entries : Entries) : List Definition :=
  picks.map fun p => ⟨p.target.binding, Literal.embedOption (entries.get? p.key.value)⟩

/-- Every pick reads its key off the name `object`. -/
def ofReads (object : Ident) (picks : List Pick) : List Definition :=
  picks.map fun p => ⟨p.target.binding, Literal.member object p.key⟩

/-- Every field takes the value of its key out of the data. -/
def ofFields (fields : List (String × Binding)) (entries : Entries) : List Definition :=
  fields.map fun (key, target) => ⟨target, Literal.embedOption (entries.get? key)⟩

/-- **The definitions of slots** from a position on. A rest has to be a plain name. -/
def ofSlots (value : Value) (module : String) (index : Nat) :
    List Slot → Except Failure (List Definition)
  | [] => .ok []
  | .hole :: slots => ofSlots value module (index + 1) slots
  | .item target :: slots => do
    let rest ← ofSlots value module (index + 1) slots
    return ⟨target, Literal.embedOption (elementAt? value index)⟩ :: rest
  | .rest (.node (.restPattern _) [.binding target]) :: slots => do
    let rest ← ofSlots value module (index + 1) slots
    return ⟨target, Literal.embed (elementsFrom value index)⟩ :: rest
  | .rest _ :: _ => .error (.unsupportedRest module)

/-- **The definitions of a shape** with the data `value` of the module `module`. -/
def ofShape (shape : Shape) (value : Value) (module : String) :
    Except Failure (List Definition) :=
  match shape with
  | .defaultImport target => .ok [⟨target.binding, Literal.embed value⟩]
  | .starImport target => .ok [⟨target.binding, Literal.embed value⟩]
  | .namedImport picks =>
    match value.entries? with
    | some entries => .ok (ofPicks picks entries)
    | none => .error (.notObject module)
  | .defaultAndStar target star =>
    .ok [⟨target.binding, Literal.embed value⟩, ⟨star.binding, .reference target⟩]
  | .defaultAndNamed target picks =>
    match value.entries? with
    | some _ => .ok (⟨target.binding, Literal.embed value⟩ :: ofReads target picks)
    | none => .error (.notObject module)
  | .wholeRequire target => .ok [⟨target, Literal.embed value⟩]
  | .fieldRequire fields =>
    match value.entries? with
    | some entries => .ok (ofFields fields entries)
    | none => .error (.notObject module)
  | .slotRequire slots =>
    if hasPositions value then ofSlots value module 0 slots
    else .error (.notSequence module)
  | .unsupported => .ok []

end Definition

end Inlay
