import Inlay.Code.Node

/-!
# Shapes of declarations

A declaration that loads a module binds names to its data in one of eight **shapes**, or in a way
that is not supported. The shape holds everything that is needed to write the declaration anew:
which names are bound, in order, and what each of them takes from the data.

* `Shape.ofImport` sorts imports, `Shape.ofTarget` the patterns that a `require` is assigned to.
* `requireSource?` finds the module that an initialiser requires.
* `Shape.ofDeclarator` asks first whether the module is a data module.
-/

namespace Inlay

open Code

/-- **A pick**: the name `target` takes the value of `key`. -/
structure Pick where
  key : Key
  target : Ident
deriving DecidableEq, Repr

/-- **A slot** of a list pattern. -/
inductive Slot where
  /-- A hole: the position is passed over. -/
  | hole
  /-- A name for the value at the position. -/
  | item (target : Binding)
  /-- A pattern for everything from the position on. -/
  | rest (pattern : Node)
deriving Repr

/-- **The shape of a declaration.** -/
inductive Shape where
  /-- One name for all data, as in `import a from`. -/
  | defaultImport (target : Ident)
  /-- One name for the module itself, as in `import * as a from`. -/
  | starImport (target : Ident)
  /-- Names in braces: each takes the value of its key. -/
  | namedImport (picks : List Pick)
  /-- A name for all data and one for the module, as in `import a, * as b from`. -/
  | defaultAndStar (target star : Ident)
  /-- A name for all data, and names in braces. -/
  | defaultAndNamed (target : Ident) (picks : List Pick)
  /-- A `require` with one name for all data. -/
  | wholeRequire (target : Binding)
  /-- A `require` with an object pattern: keys and their names. -/
  | fieldRequire (fields : List (String × Binding))
  /-- A `require` with a list pattern: its slots by position. -/
  | slotRequire (slots : List Slot)
  /-- Nothing that can be replaced. -/
  | unsupported
deriving Repr

namespace Shape

/-- The name of a kind of shape. -/
def kind : Shape → String
  | defaultImport _ => "default-only"
  | starImport _ => "namespace-only"
  | namedImport _ => "fully-destructured"
  | defaultAndStar _ _ => "mixed-namespace"
  | defaultAndNamed _ _ => "mixed-named"
  | wholeRequire _ => "simple-require"
  | fieldRequire _ => "destructured-require"
  | slotRequire _ => "destructured-array-require"
  | unsupported => "no-match"

/-- The shape can be replaced. -/
def isSupported : Shape → Bool
  | unsupported => false
  | _ => true

/-! ## Imports -/

/-- A named specifier as a pick; its key is its own name unless another is given. -/
def pickOf? : Specifier → Option Pick
  | .named target (some key) false => some ⟨key, target⟩
  | .named target none false => some ⟨.name target.name, target⟩
  | _ => none

/-- All specifiers as picks, if all are named ones. -/
def picksOf? (specifiers : List Specifier) : Option (List Pick) := specifiers.mapM pickOf?

/-- The shape of a list of specifiers. -/
def ofSpecifiers : List Specifier → Shape
  | [.default target] => defaultImport target
  | [.star target] => starImport target
  | [.default target, .star star] => defaultAndStar target star
  | .default target :: rest =>
    match picksOf? rest with
    | some picks => defaultAndNamed target picks
    | none => unsupported
  | specifiers =>
    match picksOf? specifiers with
    | some picks => namedImport picks
    | none => unsupported

/-- **The shape of an import.** Imports of types only, or for another phase, load no data. -/
def ofImport (decl : Import) : Shape :=
  if decl.typeOnly || decl.phase != .evaluation then unsupported
  else ofSpecifiers decl.specifiers

/-! ## Requires -/

/-- An entry of an object pattern as key and name: just a name without default, or a plain key with
    a name. -/
def fieldOf? : Node → Option (String × Binding)
  | .node (.fieldPattern target) [.absent] => some (target.ident.name, target)
  | .node .entryPattern [.node (.nameKey key) [], .binding target] => some (key, target)
  | _ => none

/-- An element of a list pattern before the last: a name or a hole. -/
def slotOf? : Node → Option Slot
  | .absent => some .hole
  | .binding target => some (.item target)
  | _ => none

/-- The last element of a list pattern: a name or a rest pattern. -/
def lastSlotOf? : Node → Option Slot
  | .binding target => some (.item target)
  | .node (.restPattern type) children => some (.rest (.node (.restPattern type) children))
  | _ => none

/-- The slots of a list pattern. -/
def slotsOf? : List Node → Option (List Slot)
  | [] => none
  | [last] => do return [← lastSlotOf? last]
  | element :: rest => do return (← slotOf? element) :: (← slotsOf? rest)

/-- **The shape of a pattern** that a required module is assigned to. -/
def ofTarget : Node → Shape
  | .binding target => wholeRequire target
  | .node (.objectPattern _) entries =>
    match entries.mapM fieldOf? with
    | some (field :: fields) => fieldRequire (field :: fields)
    | _ => unsupported
  | .node (.listPattern _) elements =>
    match slotsOf? elements with
    | some slots => slotRequire slots
    | none => unsupported
  | _ => unsupported

end Shape

/-- **The module that an initialiser requires**: a plain call of the name `require` with one string
    literal. -/
def requireSource? : Node → Option String
  | .node .call [.reference callee, .text source] =>
    if callee.name = "require" then some source else none
  | _ => none

/-- **The shape of a declarator**, where `accepts` tells the names of data modules. -/
def Shape.ofDeclarator (accepts : String → Bool) : Node → Shape
  | .declarator _ target init =>
    match requireSource? init with
    | some source => if accepts source then ofTarget target else unsupported
    | none => unsupported
  | _ => unsupported

end Inlay
