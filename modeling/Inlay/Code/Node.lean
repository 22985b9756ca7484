import Inlay.Code.Ident
import Inlay.Number.Double

/-!
# Code as a tree

Code is a **tree of nodes**. What a node is, and all of it that is not code itself, is its `Form`;
its parts are its children, in the order in which they are visited. A part that may be left out is
an `absent` node, so every form has its children at fixed places: the second child of a `declarator`
is its initialiser, whether there is one or not.

Keeping the forms apart from the tree makes a walk over all code a recursion over two shapes, nodes
and lists of nodes: `Node.visit` runs an action on every node, children first.

* `Form`, `Node`: forms and trees.
* `Node.visit`: the bottom-up walk.
-/

namespace Inlay.Code

/-! ## Declarations and imports -/

/-- How a declaration binds: `var`, `let` or `const`. -/
inductive DeclarationKind where
  | functionScoped | blockScoped | constant
deriving DecidableEq, Repr

/-- **The head of a declaration**: everything but its declarators. -/
structure DeclarationHead where
  kind : DeclarationKind
  ambient : Bool
  context : Nat
  span : Span
deriving DecidableEq, Repr

/-- **The key of a named import**: written as a name, or as a quoted text. -/
inductive Key where
  | name (value : String)
  | text (value : String)
deriving DecidableEq, Repr

/-- The text of a key, however it is written. -/
def Key.value : Key → String
  | name s => s
  | text s => s

/-- **One specifier of an import.** A named one without `imported` is imported under its own name.
    -/
inductive Specifier where
  | default (target : Ident)
  | star (target : Ident)
  | named (target : Ident) (imported : Option Key) (typeOnly : Bool)
deriving DecidableEq, Repr

/-- The identifier that a specifier binds. -/
def Specifier.target : Specifier → Ident
  | default target => target
  | star target => target
  | named target _ _ => target

/-- When an import is evaluated. -/
inductive Phase where
  | evaluation | source | deferred
deriving DecidableEq, Repr

/-- **An import**, without its attributes. -/
structure Import where
  specifiers : List Specifier
  source : String
  typeOnly : Bool
  phase : Phase
  span : Span
deriving DecidableEq, Repr

/-! ## Forms and nodes -/

/-- **The form of a node.** The comment behind each says what its children are. -/
inductive Form where
  /-- A part that is left out, a hole of a list. No children. -/
  | absent
  -- Names of properties
  /-- A plain property name. No children. -/
  | nameKey (name : String)
  /-- A quoted property name. No children. -/
  | textKey (value : String)
  /-- A numeric property name. No children. -/
  | numberKey (value : Double)
  /-- A computed property name: its expression. -/
  | computedKey
  -- Patterns
  /-- A name being bound. No children. -/
  | binding (target : Binding)
  /-- A list pattern: its elements, patterns or holes. -/
  | listPattern (type : Option String)
  /-- An object pattern: its entries. -/
  | objectPattern (type : Option String)
  /-- An entry of an object pattern that is just a name: its default. -/
  | fieldPattern (target : Binding)
  /-- An entry of an object pattern with a key: key and pattern. -/
  | entryPattern
  /-- A rest pattern: its argument. -/
  | restPattern (type : Option String)
  /-- A pattern with a default: pattern and default. -/
  | defaultPattern
  -- Expressions
  /-- A use of a name. No children. -/
  | reference (ident : Ident)
  /-- A string literal. No children. -/
  | text (value : String)
  /-- A number literal. No children. -/
  | number (value : Double)
  /-- A Boolean literal. No children. -/
  | boolean (value : Bool)
  /-- The literal `null`. No children. -/
  | null
  /-- A list literal: its elements, expressions, spreads or holes. -/
  | list
  /-- A spread: its expression. -/
  | spread
  /-- An object literal: its members. -/
  | object
  /-- A member of an object literal: key and value. -/
  | property
  /-- A member of an object literal that is just a name. No children. -/
  | shorthand (ident : Ident)
  /-- A method of an object literal or a class: key, parameters and body. -/
  | method
  /-- The parameters of a function: patterns. -/
  | parameters
  /-- A call: callee and arguments. -/
  | call
  /-- A call that is skipped when there is nothing to call: callee and arguments. -/
  | optionalCall
  /-- A constructor call: callee and arguments. -/
  | construct
  /-- The callee `super`. No children. -/
  | superCallee
  /-- The callee `import`. No children. -/
  | importCallee
  /-- A member read: object and key. -/
  | member
  /-- A binary operation: left and right operand. -/
  | binary (operator : String)
  /-- A unary operation: its operand. -/
  | unary (operator : String)
  /-- Parentheses: their expression. -/
  | parens
  /-- An `await`: its operand. -/
  | await
  /-- A conditional expression: condition and the two outcomes. -/
  | conditional
  /-- An assignment to a name: its right-hand side. -/
  | assign (target : Binding)
  /-- A type assertion: its expression. -/
  | cast (type : String)
  /-- A template: its expressions. -/
  | template (quasis : List String)
  /-- A function expression: parameters and body. -/
  | function (ident : Option Ident)
  /-- An arrow function: parameters and body, a block or an expression. -/
  | arrow
  -- Statements
  /-- A declaration: its declarators. -/
  | declaration (head : DeclarationHead)
  /-- A declarator: pattern and initialiser. -/
  | declarator (definite : Bool)
  /-- A declaration of resources that are disposed of: its declarators. -/
  | resource (awaited : Bool)
  /-- A function declaration: parameters and body. -/
  | functionDeclaration (ident : Ident)
  /-- A class declaration: its methods and static blocks. -/
  | classDeclaration (ident : Ident)
  /-- A static block of a class: its statements. -/
  | staticBlock
  /-- A nested module: its body, a `moduleBody`. -/
  | nestedModule (name : String)
  /-- An expression as a statement: the expression. -/
  | expression
  /-- A block, also as the body of a function: its statements. -/
  | block
  /-- A `return`: its operand. -/
  | returning
  /-- A conditional statement: condition and the two branches. -/
  | branch
  /-- A counting loop: start, condition, step and body. -/
  | loop
  /-- A loop over the elements of a collection: declaration, collection and body. -/
  | each
  /-- A `try`: block, parameter, handler and finaliser. -/
  | attempt
  -- Modules
  /-- The items of a module. -/
  | moduleBody
  /-- The statements of a script. -/
  | script
  /-- An import: its attributes. -/
  | importItem (decl : Import)
  /-- An exported declaration: the declaration. -/
  | exportDeclaration
  /-- A default export: its expression. -/
  | exportDefault
  /-- An export of everything from elsewhere. No children. -/
  | exportAll (source : String)
deriving DecidableEq, Repr

/-- **A node**: its form and its children. -/
inductive Node where
  | node (form : Form) (children : List Node)
deriving Repr

namespace Node

/-- The form of a node. -/
def form : Node → Form
  | node form _ => form

/-- The children of a node, in the order in which they are visited. -/
def children : Node → List Node
  | node _ children => children

/-- A part that is left out. -/
@[match_pattern] abbrev absent : Node := node .absent []

/-- A string literal. -/
@[match_pattern] abbrev text (value : String) : Node := node (.text value) []

/-- A number literal. -/
@[match_pattern] abbrev number (value : Double) : Node := node (.number value) []

/-- A use of a name. -/
@[match_pattern] abbrev reference (ident : Ident) : Node := node (.reference ident) []

/-- A name being bound. -/
@[match_pattern] abbrev binding (target : Binding) : Node := node (.binding target) []

/-- A declarator with its pattern and its initialiser. -/
@[match_pattern] abbrev declarator (definite : Bool) (target init : Node) : Node :=
  node (.declarator definite) [target, init]

/-- The initialiser of a declarator. -/
def init : Node → Node
  | declarator _ _ init => init
  | _ => absent

/-! ## Walking -/

mutual

/-- **The bottom-up walk**: the children of a node are walked first to last, then `act` turns the
    form and the walked children into a node. -/
def visit {m : Type → Type} [Monad m] (act : Form → List Node → m Node) : Node → m Node
  | node form children => do act form (← visitAll act children)

/-- Walks nodes first to last. -/
def visitAll {m : Type → Type} [Monad m] (act : Form → List Node → m Node) :
    List Node → m (List Node)
  | [] => pure []
  | n :: rest => do
    let n ← visit act n
    let rest ← visitAll act rest
    pure (n :: rest)

end

end Node

end Inlay.Code
