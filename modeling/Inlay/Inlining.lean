import Inlay.Definition
import Inlay.Journal
import Inlay.Json.Read
import Inlay.Matcher

/-!
# Replacing declarations by their data

A run walks the code bottom-up. At a declaration, every declarator that requires a data module in a
supported shape is replaced by the definitions of its data; at a list of module items, the same is
done to every import, with one constant declaration for each definition. So everything below a list
of items is settled before the imports of the list are. The first failure stops all replacing, and
leaves the declaration it happened in as it was.

* `Context`: what a run is given.
* `Context.load`, `Context.define`: from a module name to its definitions.
* `Context.settle`: what happens at one node, once its children are walked.
* `Context.run`: a whole run.
-/

namespace Inlay

open Code

/-- **What a run is given**: the matcher, the file that holds the code if it is known, and how
    the file at a path is read. -/
structure Context where
  matcher : Matcher
  file : Option String
  read : String → Except ReadError String

/-- A step of a run: reads and writes the journal. -/
abbrev Run := StateM Journal

/-- Writes an event. -/
def note (event : Event) : Run Unit := modify fun j => j.note event

namespace Context

variable (ctx : Context)

/-! ## From module to definitions -/

/-- The path of a module. -/
def pathOf (module : String) : String := Path.resolve module ctx.file

/-- **The data of a module**: the file at its path, read and parsed. -/
def fetch (module : String) : Except Failure Json.Value :=
  match ctx.read (ctx.pathOf module) with
  | .error cause => .error (.unreadable (ctx.pathOf module) cause)
  | .ok text =>
    match Json.parse text with
    | .error cause => .error (.malformed (ctx.pathOf module) cause)
    | .ok value => .ok value

/-- **Loads a module.** Every load is written down and reads the file anew. -/
def load (module : String) : Run (Except Failure Json.Value) := do
  note (.reading module (ctx.pathOf module))
  return ctx.fetch module

/-- **The definitions of a shape** with the data of a module. -/
def define (origin : Origin) (module : String) (shape : Shape) :
    Run (Except Failure (List Definition)) := do
  match ← ctx.load module with
  | .error failure => return .error failure
  | .ok value =>
    match Definition.ofShape shape value module with
    | .error failure => return .error failure
    | .ok ds =>
      note (.inlined origin module shape.kind ds.length)
      return .ok ds

/-! ## Requires -/

/-- **The module and shape of a declarator** that is to be replaced. -/
def required? (declarator : Node) : Option (String × Shape) :=
  let shape := Shape.ofDeclarator ctx.matcher.accepts declarator
  match requireSource? declarator.init with
  | some module => if shape.isSupported then some (module, shape) else none
  | none => none

/-- **The declarators of a declaration**, each replaced if it is to be. The first failure ends it.
    -/
def settleDeclarators : List Node → Run (Except Failure (List Node))
  | [] => return .ok []
  | d :: rest => do
    let here ←
      match ctx.required? d with
      | none => pure (.ok [d])
      | some (module, shape) => do
        let ds ← ctx.define .required module shape
        pure (ds.map fun ds => ds.map Definition.declarator)
    match here with
    | .error failure => return .error failure
    | .ok here => do
      let rest ← settleDeclarators rest
      return rest.map (here ++ ·)

/-- **A declaration.** A failure leaves all its declarators. -/
def settleDeclaration (head : DeclarationHead) (declarators : List Node) : Run Node := do
  match ← ctx.settleDeclarators declarators with
  | .ok declarators => return .node (.declaration head) declarators
  | .error failure =>
    modify fun j => j.fail head.span failure
    return .node (.declaration head) declarators

/-! ## Imports -/

/-- **What stands in place of an import**, or nothing if it stays. -/
def settleImport (decl : Import) : Run (Except Failure (Option (List Node))) := do
  if !ctx.matcher.accepts decl.source then return .ok none
  else
    let shape := Shape.ofImport decl
    if !shape.isSupported then
      note (.passedOver decl.source)
      return .ok none
    else
      let ds ← ctx.define .imported decl.source shape
      return ds.map fun ds => some (ds.map Definition.constant)

/-- **One item of a module**, and what stands in its place. -/
def settleItem (item : Node) : Run (List Node) := do
  match item with
  | .node (.importItem decl) _ =>
    if (← get).stopped then return [item]
    else
      match ← ctx.settleImport decl with
      | .ok (some items) => return items
      | .ok none => return [item]
      | .error failure =>
        modify fun j => j.fail decl.span failure
        return [item]
  | item => return [item]

/-- **The items of a module**, first to last. -/
def settleItems : List Node → Run (List Node)
  | [] => return []
  | item :: rest => do
    let here ← ctx.settleItem item
    let rest ← settleItems rest
    return here ++ rest

/-! ## Whole trees -/

/-- **What happens at one node**, with its children walked already. -/
def settle (form : Form) (children : List Node) : Run Node := do
  if (← get).stopped then return .node form children
  else
    match form with
    | .declaration head => ctx.settleDeclaration head children
    | .moduleBody => return .node .moduleBody (← ctx.settleItems children)
    | form => return .node form children

/-- **Walks a tree**, settling every node. -/
def walk (program : Node) : Run Node := program.visit ctx.settle

/-- Walks trees one after the other, with one journal. -/
def walkAll (programs : List Node) : Run (List Node) := Node.visitAll ctx.settle programs

end Context

/-! ## Entry points -/

/-- **Inlines the data modules of a program**: the tree that is left, and the journal. -/
def Context.run (ctx : Context) (program : Node) : Node × Journal :=
  (ctx.walk program).run .empty

/-- Inlines the data modules of several programs, in order. A failure in one of them keeps the later
    ones as they are. -/
def Context.runAll (ctx : Context) (programs : List Node) : List Node × Journal :=
  (ctx.walkAll programs).run .empty

/-- The outcome of a run, without the place of a failure. -/
def Journal.outcome (j : Journal) : Except Failure Unit :=
  match j.failure with
  | some (_, failure) => .error failure
  | none => .ok ()

/-- A report on a failure, at the place of its declaration. -/
structure Diagnostic where
  span : Span
  message : String
deriving DecidableEq, Repr

/-- **The reports of a run**: one for a failure, and none without. -/
def Journal.diagnostics (j : Journal) : List Diagnostic :=
  match j.failure with
  | some (span, failure) => [⟨span, failure.message⟩]
  | none => []

/-- The context when nothing is set and the file is not known. -/
def Context.unset (read : String → Except ReadError String) : Context := ⟨.default, none, read⟩

end Inlay
