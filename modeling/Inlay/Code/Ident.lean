/-!
# Identifiers

An identifier is more than its name: it carries the **hygiene context** that tells bindings of one
name apart, the span of source text it was read from, and a mark for optional parameters. All of it
travels along when the identifier is copied.
-/

namespace Inlay.Code

/-- A stretch of source text. -/
structure Span where
  lo : Nat
  hi : Nat
deriving DecidableEq, Repr, Inhabited

/-- The span of code that no source text stands for. -/
def Span.none : Span := ⟨0, 0⟩

/-- **An identifier.** -/
structure Ident where
  name : String
  context : Nat
  span : Span
  optional : Bool
deriving DecidableEq, Repr, Inhabited

/-- **A binding**: an identifier that is being declared, with its type annotation. -/
structure Binding where
  ident : Ident
  type : Option String
deriving DecidableEq, Repr, Inhabited

/-- A binding without annotation. -/
def Ident.binding (ident : Ident) : Binding := ⟨ident, .none⟩

end Inlay.Code
