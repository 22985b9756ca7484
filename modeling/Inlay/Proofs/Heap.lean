import Inlay.Definition
import Inlay.Proofs.Literals

/-!
# What code leaves in a heap

The meaning of literals, member reads and declarations when lists and objects have an **identity**.
A name holds a primitive value or an address, and two names hold the same list or object if they
hold the same address. Every list literal and every object literal puts a cell of its own behind the
cells that are there, so its address is never an old one.

* `Held`, `Cell`, `Heap`: values, and the lists and objects that stand at addresses.
* `evalIn`: expressions; `Heap.read`: member reads, with `inherited` for what an object does not
  have itself.
* `declareAll`: declarations, first to last.
* `Heap.Holds`: what is held is made like a JSON value, at every depth.
* `WrittenOnce`: a value is held, and the heap has grown by its own lists and objects and no more.
* `Literal.evalIn_embed`: evaluating a literal writes its value once.
-/

namespace Inlay

open Code Json

/-! ## Heaps -/

/-- **What is held** by a name, an element or a member: a primitive value, or the address of a list
    or an object. -/
inductive Held where
  | undefined
  | null
  | boolean (value : Bool)
  | number (value : Double)
  | string (value : String)
  | address (index : Nat)
deriving DecidableEq

/-- **What stands at an address.** The elements of a list may be holes, and an object has a
    prototype of its own if one was set. -/
inductive Cell where
  | list (elements : List (Option Held))
  | object (prototype : Option Held) (own : List (String × Held))
deriving DecidableEq

/-- **A heap**: its cells, by their addresses. -/
abbrev Heap := List Cell

namespace Heap

/-- **A new cell** has an address of its own. -/
def allocate (heap : Heap) (cell : Cell) : Held × Heap := (.address heap.length, heap ++ [cell])

/-- **A member read** off an object: the own member, or what `inherited` gives. -/
def read (inherited : Heap → Held → String → Held) (heap : Heap) (x : Held) (key : String) :
    Option Held :=
  match x with
  | .address a =>
    match heap[a]? with
    | some (.object _ own) => some ((own.lookup key).getD (inherited heap x key))
    | _ => none
  | _ => none

/-- Off an object every key can be read. -/
theorem read_of_object (inherited : Heap → Held → String → Held) {heap : Heap} {a : Nat}
    {prototype : Option Held} {own : List (String × Held)}
    (h : heap[a]? = some (.object prototype own)) (key : String) :
    heap.read inherited (.address a) key
      = some ((own.lookup key).getD (inherited heap (.address a) key)) := by
  rw [read, h]

/-- **A heap has grown** by a number of cells, behind all those that were there. -/
def GrowsBy (count : Nat) (old new : Heap) : Prop :=
  ∃ cells, new = old ++ cells ∧ cells.length = count

namespace GrowsBy

variable {old new : Heap} {count : Nat}

theorem refl (heap : Heap) : GrowsBy 0 heap heap := ⟨[], (List.append_nil heap).symm, rfl⟩

theorem trans {middle : Heap} {more : Nat} (h : GrowsBy count old middle)
    (hmore : GrowsBy more middle new) : GrowsBy (count + more) old new := by
  obtain ⟨cells, rfl, rfl⟩ := h
  obtain ⟨behind, rfl, rfl⟩ := hmore
  exact ⟨cells ++ behind, List.append_assoc _ _ _, List.length_append⟩

theorem allocate (h : GrowsBy count old new) (cell : Cell) :
    GrowsBy (count + 1) old (new.allocate cell).2 :=
  h.trans ⟨[cell], rfl, rfl⟩

theorem length_le (h : GrowsBy count old new) : old.length ≤ new.length := by
  obtain ⟨cells, rfl, -⟩ := h
  rw [List.length_append]
  exact Nat.le_add_right _ _

/-- What was there is still there. -/
theorem getElem? (h : GrowsBy count old new) {a : Nat} {cell : Cell} (ha : old[a]? = some cell) :
    new[a]? = some cell := by
  obtain ⟨cells, rfl, -⟩ := h
  obtain ⟨hlt, -⟩ := List.getElem?_eq_some_iff.mp ha
  rw [List.getElem?_append_left hlt, ha]

end GrowsBy

/-- A new cell stands at its address. -/
theorem getElem?_allocate (heap : Heap) (cell : Cell) :
    (heap.allocate cell).2[heap.length]? = some cell :=
  List.getElem?_concat_length

end Heap

/-! ## Expressions -/

namespace Held

/-- The text of what is one. -/
def text? : Held → Option String
  | string s => some s
  | _ => none

/-- What can be the prototype of an object. -/
def isPrototype : Held → Bool
  | null | address _ => true
  | _ => false

/-- A unary operation. -/
def unary (operator : String) (x : Held) : Option Held :=
  if operator = "void" then some undefined
  else if operator = "-" then
    match x with
    | number d => some (number d.opposite)
    | _ => none
  else none

/-- A binary operation. -/
def binary (operator : String) (l r : Held) : Option Held :=
  if operator = "/" then
    match l, r with
    | number d, number e => some (number (d.quotient e))
    | _, _ => none
  else none

end Held

/-- An object while its members are added. -/
structure Fields where
  prototype : Option Held
  own : List (String × Held)

namespace Fields

/-- No members yet. -/
def empty : Fields := ⟨none, []⟩

/-- Sets an own member. A key that is there already keeps its place. -/
def put (key : String) (x : Held) (own : List (String × Held)) : List (String × Held) :=
  if key ∈ own.map Prod.fst then own.map fun field => if field.1 = key then (key, x) else field
  else own ++ [(key, x)]

/-- **Adds a member.** A written `__proto__` sets the prototype, if it can be one, and is no own
    member. -/
def add (fields : Fields) (name : MemberName) (x : Held) : Fields :=
  match name with
  | .written name =>
    if name = "__proto__" then
      if x.isPrototype then { fields with prototype := some x } else fields
    else { fields with own := put name x fields.own }
  | .computed name => { fields with own := put name x fields.own }

end Fields

section

variable (inherited : Heap → Held → String → Held) (names : List (Name × Held))

mutual

/-- **The value of an expression**, and the heap behind its evaluation. -/
def evalIn : Node → Heap → Option (Held × Heap)
  | .node .null [], heap => some (.null, heap)
  | .node (.boolean b) [], heap => some (.boolean b, heap)
  | .node (.number d) [], heap => some (.number d, heap)
  | .node (.text s) [], heap => some (.string s, heap)
  | .node (.reference x) [], heap => (names.lookup x.key).map fun held => (held, heap)
  | .node .list elements, heap => do
    let r ← evalElementsIn elements heap
    return r.2.allocate (.list r.1)
  | .node .object members, heap => do
    let r ← evalMembersIn members .empty heap
    return r.2.allocate (.object r.1.prototype r.1.own)
  | .node (.unary operator) [operand], heap => do
    let r ← evalIn operand heap
    return (← r.1.unary operator, r.2)
  | .node (.binary operator) [l, r], heap => do
    let l ← evalIn l heap
    let r ← evalIn r l.2
    return (← l.1.binary operator r.1, r.2)
  | .node .parens [inner], heap => evalIn inner heap
  | .node .member [object, key], heap => do
    let r ← evalIn object heap
    let k ← evalNameIn key r.2
    match k.1 with
    | .written name => return (← k.2.read inherited r.1 name, k.2)
    | .computed name => return (← k.2.read inherited r.1 name, k.2)
  | _, _ => none

/-- The elements of a list literal. -/
def evalElementsIn : List Node → Heap → Option (List (Option Held) × Heap)
  | [], heap => some ([], heap)
  | .node .absent [] :: rest, heap => do
    let r ← evalElementsIn rest heap
    return (none :: r.1, r.2)
  | n :: rest, heap => do
    let x ← evalIn n heap
    let r ← evalElementsIn rest x.2
    return (some x.1 :: r.1, r.2)

/-- The members of an object literal, added to those before. -/
def evalMembersIn : List Node → Fields → Heap → Option (Fields × Heap)
  | [], fields, heap => some (fields, heap)
  | .node .property [key, value] :: rest, fields, heap => do
    let k ← evalNameIn key heap
    let x ← evalIn value k.2
    evalMembersIn rest (fields.add k.1 x.1) x.2
  | _ :: _, _, _ => none

/-- The name of a member. -/
def evalNameIn : Node → Heap → Option (MemberName × Heap)
  | .node (.nameKey name) [], heap => some (.written name, heap)
  | .node (.textKey name) [], heap => some (.written name, heap)
  | .node .computedKey [inner], heap => do
    let r ← evalIn inner heap
    return (.computed (← r.1.text?), r.2)
  | _, _ => none

end

end

/-! ## Declarations -/

/-- **A store**: the heap, and what names hold. Of two bindings of one name the latest comes
    first. -/
structure Store where
  heap : Heap
  names : List (Name × Held)

section

variable (inherited : Heap → Held → String → Held)

/-- Executes declarators, first to last. -/
def declare : List Node → Store → Option Store
  | [], st => some st
  | .declarator _ (.binding target) init :: rest, st => do
    let r ← evalIn inherited st.names init st.heap
    declare rest ⟨r.2, (target.ident.key, r.1) :: st.names⟩
  | _ :: _, _ => none

/-- **Executes declarations**, first to last. -/
def declareAll : List Node → Store → Option Store
  | [], st => some st
  | .node (.declaration _) declarators :: rest, st => do
    declareAll rest (← declare inherited declarators st)
  | _ :: _, _ => none

/-- A definition binds its name, and those behind it see the binding. -/
theorem declareAll_constant_cons {d : Definition} {st : Store} {x : Held} {heap : Heap}
    (h : evalIn inherited st.names d.value st.heap = some (x, heap)) (ds : List Definition) :
    declareAll inherited ((d :: ds).map Definition.constant) st
      = declareAll inherited (ds.map Definition.constant)
          ⟨heap, (d.target.ident.key, x) :: st.names⟩ := by
  have hone : declare inherited [d.declarator] st
      = some ⟨heap, (d.target.ident.key, x) :: st.names⟩ := by
    rw [Definition.declarator, declare, h]
    rfl
  rw [List.map_cons, Definition.constant, declareAll, hone]
  rfl

end

/-! ## Values in a heap -/

mutual

/-- **The lists and objects of a value**, at every depth. -/
def Json.Value.cellCount : Value → Nat
  | .array items => Value.itemsCellCount items + 1
  | .object entries => Value.entriesCellCount entries + 1
  | _ => 0

def Json.Value.itemsCellCount : List Value → Nat
  | [] => 0
  | v :: rest => v.cellCount + Value.itemsCellCount rest

def Json.Value.entriesCellCount : List (String × Value) → Nat
  | [] => 0
  | (_, v) :: rest => v.cellCount + Value.entriesCellCount rest

end

namespace Heap

mutual

/-- **What is held is made like a JSON value**: lists without holes, and objects with just their own
    members, in order. -/
def Holds (heap : Heap) (x : Held) : Value → Prop
  | .null => x = .null
  | .bool b => x = .boolean b
  | .number n => x = .number n.toDouble
  | .string s => x = .string s
  | .array items =>
    ∃ a elements, x = .address a ∧ heap[a]? = some (.list elements) ∧
      HoldsItems heap elements items
  | .object entries =>
    ∃ a own, x = .address a ∧ heap[a]? = some (.object none own) ∧ HoldsEntries heap own entries

def HoldsItems (heap : Heap) (elements : List (Option Held)) : List Value → Prop
  | [] => elements = []
  | v :: rest =>
    ∃ x others, elements = some x :: others ∧ Holds heap x v ∧ HoldsItems heap others rest

def HoldsEntries (heap : Heap) (own : List (String × Held)) : List (String × Value) → Prop
  | [] => own = []
  | (k, v) :: rest =>
    ∃ x others, own = (k, x) :: others ∧ Holds heap x v ∧ HoldsEntries heap others rest

end

mutual

/-- A value is still held when the heap has grown. -/
theorem Holds.mono {count : Nat} {old new : Heap} (h : GrowsBy count old new) :
    ∀ {x : Held} (v : Value), Holds old x v → Holds new x v
  | _, .null, hx => hx
  | _, .bool _, hx => hx
  | _, .number _, hx => hx
  | _, .string _, hx => hx
  | _, .array items, ⟨a, elements, hx, ha, hitems⟩ =>
      ⟨a, elements, hx, h.getElem? ha, HoldsItems.mono h items hitems⟩
  | _, .object entries, ⟨a, own, hx, ha, hentries⟩ =>
      ⟨a, own, hx, h.getElem? ha, HoldsEntries.mono h entries hentries⟩

theorem HoldsItems.mono {count : Nat} {old new : Heap} (h : GrowsBy count old new) :
    ∀ {elements : List (Option Held)} (items : List Value),
      HoldsItems old elements items → HoldsItems new elements items
  | _, [], hnil => hnil
  | _, v :: rest, ⟨x, others, heq, hx, hrest⟩ =>
      ⟨x, others, heq, Holds.mono h v hx, HoldsItems.mono h rest hrest⟩

theorem HoldsEntries.mono {count : Nat} {old new : Heap} (h : GrowsBy count old new) :
    ∀ {own : List (String × Held)} (entries : List (String × Value)),
      HoldsEntries old own entries → HoldsEntries new own entries
  | _, [], hnil => hnil
  | _, (_, v) :: rest, ⟨x, others, heq, hx, hrest⟩ =>
      ⟨x, others, heq, Holds.mono h v hx, HoldsEntries.mono h rest hrest⟩

end

end Heap

/-- **A value was written once**: the heap has grown by one cell for each list and object of the
    value and by nothing else, and the value is held, at an address that was not there before if it
    has one. -/
structure WrittenOnce (v : Value) (x : Held) (old new : Heap) : Prop where
  grows : Heap.GrowsBy v.cellCount old new
  fresh : ∀ a, x = .address a → old.length ≤ a
  holds : v.KeysDistinct → new.Holds x v

namespace Literal

variable (inherited : Heap → Held → String → Held) (names : List (Name × Held)) (heap : Heap)

/-! ## Numbers and keys -/

theorem evalIn_infinity :
    evalIn inherited names infinity heap = some (.number .infinity, heap) := by
  show some (Held.number (Double.one.quotient Double.zero), heap) = _
  rw [Double.quotient_one_zero]

theorem evalIn_magnitude (d : Double) :
    evalIn inherited names (magnitude d) heap = some (.number d, heap) := by
  rw [magnitude]
  by_cases h : d = Double.infinity
  · rw [if_pos h, evalIn_infinity, h]
  · rw [if_neg h]
    rfl

theorem evalIn_operand (d : Double) :
    evalIn inherited names (operand d) heap = some (.number d, heap) := by
  rw [operand]
  by_cases h : d = Double.infinity
  · rw [if_pos h, h]
    exact evalIn_infinity inherited names heap
  · rw [if_neg h]
    rfl

/-- A number evaluates to the double nearest to it, and leaves the heap as it is. -/
theorem evalIn_number (n : Numeral) :
    evalIn inherited names (number n) heap = some (.number n.toDouble, heap) := by
  rw [number_eq]
  cases h : n.negative with
  | false =>
      rw [if_neg Bool.false_ne_true, evalIn_magnitude, Numeral.toDouble_of_nonnegative h]
  | true =>
      rw [if_pos rfl, evalIn, evalIn_operand, ← Numeral.opposite_toMagnitude h]
      rfl

/-- A key names an own member, however it is written. -/
theorem evalNameIn_key (k : String) :
    ∃ name, evalNameIn inherited names (key k) heap = some (name, heap) ∧
      ∀ (fields : Fields) (x : Held),
        fields.add name x = { fields with own := Fields.put k x fields.own } := by
  rw [key]
  by_cases hproto : k = "__proto__"
  · rw [if_pos hproto]
    exact ⟨.computed k, rfl, fun _ _ => rfl⟩
  · rw [if_neg hproto]
    have hadd : ∀ (fields : Fields) (x : Held),
        fields.add (.written k) x = { fields with own := Fields.put k x fields.own } := by
      intro fields x
      rw [Fields.add, if_neg hproto]
    by_cases hname : Text.isName k = true
    · rw [if_pos hname]
      exact ⟨.written k, rfl, hadd⟩
    · rw [if_neg hname]
      exact ⟨.written k, rfl, hadd⟩

/-! ## Values -/

variable {heap}

/-- An element that has a value is no hole. -/
theorem evalElementsIn_cons {n : Node} {x : Held} {middle : Heap}
    (h : evalIn inherited names n heap = some (x, middle)) (rest : List Node) :
    evalElementsIn inherited names (n :: rest) heap
      = (evalElementsIn inherited names rest middle).map fun r => (some x :: r.1, r.2) := by
  rw [evalElementsIn]
  · rw [h]
    cases hrest : evalElementsIn inherited names rest middle <;> simp [hrest]
  · rintro rfl
    exact nomatch h

/-- A member of an object literal is put to those before it. -/
theorem evalMembersIn_cons {value : Node} {x : Held} {middle : Heap}
    (h : evalIn inherited names value heap = some (x, middle)) (k : String) (rest : List Node)
    (fields : Fields) :
    evalMembersIn inherited names (.node .property [key k, value] :: rest) fields heap
      = evalMembersIn inherited names rest { fields with own := Fields.put k x fields.own }
          middle := by
  obtain ⟨name, hname, hadd⟩ := evalNameIn_key inherited names heap k
  rw [evalMembersIn, hname, ← hadd]
  show (evalIn inherited names value heap).bind _ = _
  rw [h]
  rfl

-- The heap is threaded through the items and the entries, so what the first of them leaves is held
-- in the heaps of all that follow.
mutual

/-- **Evaluating a literal writes its value once.** -/
theorem evalIn_embed : ∀ (v : Value) (heap : Heap), ∃ x new,
    evalIn inherited names (embed v) heap = some (x, new) ∧ WrittenOnce v x heap new
  | .null, heap => ⟨_, heap, rfl, .refl heap, nofun, fun _ => rfl⟩
  | .bool _, heap => ⟨_, heap, rfl, .refl heap, nofun, fun _ => rfl⟩
  | .number n, heap =>
      ⟨_, heap, evalIn_number inherited names heap n, .refl heap, nofun, fun _ => rfl⟩
  | .string _, heap => ⟨_, heap, rfl, .refl heap, nofun, fun _ => rfl⟩
  | .array items, heap => by
      obtain ⟨elements, new, heval, hgrows, hholds⟩ := evalElementsIn_embedItems items heap
      refine ⟨.address new.length, (new.allocate (.list elements)).2, ?_, hgrows.allocate _, ?_, ?_⟩
      · show (evalElementsIn inherited names (embedItems items) heap).bind _ = _
        rw [heval]
        rfl
      · rintro a ⟨⟩
        exact hgrows.length_le
      · intro hkeys
        exact ⟨_, _, rfl, new.getElem?_allocate _,
          Heap.HoldsItems.mono ((Heap.GrowsBy.refl new).allocate _) items (hholds hkeys)⟩
  | .object entries, heap => by
      obtain ⟨own, new, heval, hgrows, hholds⟩ :=
        evalMembersIn_embedEntries entries .empty heap
      refine ⟨.address new.length, (new.allocate (.object none own)).2, ?_, hgrows.allocate _,
        ?_, ?_⟩
      · show (evalMembersIn inherited names (embedEntries entries) .empty heap).bind _ = _
        rw [heval]
        rfl
      · rintro a ⟨⟩
        exact hgrows.length_le
      · intro hkeys
        obtain ⟨added, hown, hadded⟩ := hholds hkeys.2 hkeys.1
        rw [hown]
        exact ⟨_, _, rfl, new.getElem?_allocate _,
          Heap.HoldsEntries.mono ((Heap.GrowsBy.refl new).allocate _) entries hadded⟩

/-- The elements of a list literal, with no hole among them. -/
theorem evalElementsIn_embedItems : ∀ (items : List Value) (heap : Heap), ∃ elements new,
    evalElementsIn inherited names (embedItems items) heap = some (elements, new) ∧
    Heap.GrowsBy (Value.itemsCellCount items) heap new ∧
    (Value.ItemsKeysDistinct items → new.HoldsItems elements items)
  | [], heap => ⟨[], heap, rfl, .refl heap, fun _ => rfl⟩
  | v :: rest, heap => by
      obtain ⟨x, middle, heval, hwritten⟩ := evalIn_embed v heap
      obtain ⟨elements, new, hrest, hgrows, hholds⟩ := evalElementsIn_embedItems rest middle
      refine ⟨some x :: elements, new, ?_, hwritten.grows.trans hgrows, ?_⟩
      · rw [embedItems, evalElementsIn_cons inherited names heval, hrest]
        rfl
      · intro hkeys
        exact ⟨x, elements, rfl, Heap.Holds.mono hgrows v (hwritten.holds hkeys.1), hholds hkeys.2⟩

/-- The members of an object literal. They set no prototype, and go behind those before them if all
    keys are distinct. -/
theorem evalMembersIn_embedEntries :
    ∀ (entries : List (String × Value)) (fields : Fields) (heap : Heap), ∃ own new,
      evalMembersIn inherited names (embedEntries entries) fields heap
        = some ({ fields with own := own }, new) ∧
      Heap.GrowsBy (Value.entriesCellCount entries) heap new ∧
      (Value.EntriesKeysDistinct entries →
        (fields.own.map Prod.fst ++ Entries.keys entries).Nodup →
        ∃ added, own = fields.own ++ added ∧ new.HoldsEntries added entries)
  | [], fields, heap =>
      ⟨fields.own, heap, rfl, .refl heap, fun _ _ => ⟨[], (List.append_nil _).symm, rfl⟩⟩
  | (k, v) :: rest, fields, heap => by
      obtain ⟨x, middle, heval, hwritten⟩ := evalIn_embed v heap
      obtain ⟨own, new, hrest, hgrows, hholds⟩ :=
        evalMembersIn_embedEntries rest { fields with own := Fields.put k x fields.own } middle
      refine ⟨own, new, ?_, hwritten.grows.trans hgrows, ?_⟩
      · rw [embedEntries, evalMembersIn_cons inherited names heval, hrest]
      · intro hkeys hnodup
        -- the keys before and the keys to come are distinct together, so `k` is new and goes last
        have hnew : k ∉ fields.own.map Prod.fst := by
          intro hmem
          exact (List.nodup_append.mp hnodup).2.2 k hmem k List.mem_cons_self rfl
        have hput : Fields.put k x fields.own = fields.own ++ [(k, x)] := if_neg hnew
        have hnext :
            ((fields.own ++ [(k, x)]).map Prod.fst ++ Entries.keys rest).Nodup := by
          rw [List.map_append, List.append_assoc]
          exact hnodup
        rw [hput] at hholds
        obtain ⟨added, hown, hadded⟩ := hholds hkeys.2 hnext
        refine ⟨(k, x) :: added, ?_, x, added, rfl,
          Heap.Holds.mono hgrows v (hwritten.holds hkeys.1), hadded⟩
        rw [hown, List.append_assoc]
        rfl

end

/-- Two lists that look alike have two addresses. -/
example :
    evalIn inherited names (embed (.array [.array [], .array []])) []
      = some (.address 2, [.list [], .list [], .list [some (.address 0), some (.address 1)]]) := rfl

end Literal

end Inlay
