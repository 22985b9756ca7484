import Inlay.Code.Node
import Inlay.Failure

/-!
# Journal of a run

A run keeps a **journal**: the events in the order in which they happen, and the first failure with
the place it belongs to. After a failure nothing more is replaced.

* `Event` and its wording.
* `Journal.note` writes an event, `Journal.fail` records a failure.
-/

namespace Inlay

/-- How much an event matters. -/
inductive Level where
  | trace | debug
deriving DecidableEq, Repr

/-- The two kinds of declarations that load modules. -/
inductive Origin where
  | imported | required
deriving DecidableEq, Repr

/-- **What happens in a run.** -/
inductive Event where
  /-- The module is about to be read at a path. -/
  | reading (module path : String)
  /-- An import of a data module has a shape that is not supported. -/
  | passedOver (module : String)
  /-- A declaration was written anew, with so many definitions. -/
  | inlined (origin : Origin) (module kind : String) (bindings : Nat)
  /-- A failure was recorded. -/
  | aborted (failure : Failure)
deriving DecidableEq, Repr

namespace Event

/-- The level of an event. -/
def level : Event → Level
  | reading _ _ | passedOver _ => .trace
  | inlined _ _ _ _ | aborted _ => .debug

/-- The wording of an event. -/
def message : Event → String
  | reading _ _ => "reading JSON module"
  | passedOver _ => "import shape not supported, skipping"
  | inlined .imported _ _ _ => "inlined JSON import"
  | inlined .required _ _ _ => "inlined JSON require"
  | aborted _ => "JSON inlining aborted"

end Event

/-- **A journal**: the events so far, and the first failure with the span of its declaration. -/
structure Journal where
  events : List Event := []
  failure : Option (Code.Span × Failure) := none
deriving DecidableEq, Repr

namespace Journal

/-- Nothing has happened. -/
def empty : Journal := ⟨[], none⟩

/-- A failure is recorded. -/
def stopped (j : Journal) : Bool := j.failure.isSome

/-- **Writes an event.** -/
def note (j : Journal) (event : Event) : Journal := { j with events := j.events ++ [event] }

/-- **Records a failure**; an earlier one stays. -/
def fail (j : Journal) (span : Code.Span) (failure : Failure) : Journal :=
  { j.note (.aborted failure) with
    failure := j.failure.or (some (span, failure)) }

end Journal

end Inlay
