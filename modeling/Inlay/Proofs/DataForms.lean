import Inlay.Definition
import Inlay.Proofs.Sketch
import Inlay.Proofs.Stops

/-!
# What data is written with

A definition gives its name a value out of a **few forms** only: literals, the operations in front
of a number, a name and a member read off it. None of them declares or calls anything, so a walk
finds nothing to do in what was written in place of a declaration.

* `Node.isData`: every node of a tree has one of these forms.
* `isData_embed`: literals; `isData_ofShape`: the values of all definitions of a shape.
* `isOpen_of_isData`, `requireSource?_of_isData`: a run replaces nothing in such a tree, and it
  requires no module.
* `exists_of_ofSlots_cons`: what each slot of a list pattern comes to.
-/

namespace Inlay

open Code Json

namespace Code

/-- **A form that data is written with.** -/
def Form.isData : Form → Bool
  | .null | .boolean _ | .number _ | .text _ | .list | .object | .property => true
  | .nameKey _ | .textKey _ | .computedKey | .unary _ | .binary _ | .parens => true
  | .reference _ | .member => true
  | _ => false

namespace Node

mutual

/-- **A tree of data forms.** -/
def isData : Node → Bool
  | node form children => form.isData && isDataAll children

/-- All of the trees are of data forms. -/
def isDataAll : List Node → Bool
  | [] => true
  | n :: rest => isData n && isDataAll rest

end

/-- The children of a tree of data forms are such trees. -/
theorem isDataAll_iff {ns : List Node} : isDataAll ns = true ↔ ∀ n ∈ ns, n.isData = true := by
  induction ns with
  | nil => simp [isDataAll]
  | cons n rest ih => rw [isDataAll, Bool.and_eq_true, ih, List.forall_mem_cons]

theorem isData_node_iff {form : Form} {children : List Node} :
    (node form children).isData = true ↔
      form.isData = true ∧ ∀ c ∈ children, c.isData = true := by
  rw [isData, Bool.and_eq_true, isDataAll_iff]

/-! ## A walk through data -/

/-- Data forms are closed. -/
theorem isOpen_of_isData {form : Form} (h : form.isData = true) : form.isOpen = false := by
  cases form with
  | declaration head => exact nomatch h
  | moduleBody => exact nomatch h
  | _ => rfl

end Node

/-- Data requires no module: a call is no data form. -/
theorem Node.requireSource?_of_isData {n : Node} (h : n.isData = true) :
    requireSource? n = none := by
  cases hsource : requireSource? n with
  | none => rfl
  | some source =>
      obtain ⟨callee, -, rfl⟩ := requireSource?_eq_some_iff.mp hsource
      exact nomatch h

end Code

/-! ## Values of definitions -/

namespace Literal

theorem isData_number (n : Numeral) : (number n).isData = true := by
  simp only [number]
  split
  · split <;> rfl
  · split <;> rfl

theorem isData_key (k : String) : (key k).isData = true := by
  rw [key]
  split
  · rfl
  · split <;> rfl

mutual

/-- **Literals are data.** -/
theorem isData_embed : ∀ v : Value, (embed v).isData = true
  | .null => rfl
  | .bool _ => rfl
  | .number n => isData_number n
  | .string _ => rfl
  | .array items => by
      rw [embed, Node.isData, isDataAll_embedItems items]
      rfl
  | .object entries => by
      rw [embed, Node.isData, isDataAll_embedEntries entries]
      rfl

theorem isDataAll_embedItems : ∀ items : List Value, Node.isDataAll (embedItems items) = true
  | [] => rfl
  | v :: rest => by
      rw [embedItems, Node.isDataAll, isData_embed v, isDataAll_embedItems rest]
      rfl

theorem isDataAll_embedEntries :
    ∀ entries : List (String × Value), Node.isDataAll (embedEntries entries) = true
  | [] => rfl
  | (k, v) :: rest => by
      have hproperty : (Node.node .property [key k, embed v]).isData = true := by
        simp [Node.isData_node_iff, Form.isData, isData_key k, isData_embed v]
      rw [embedEntries, Node.isDataAll, hproperty, isDataAll_embedEntries rest]
      rfl

end

theorem isData_embedOption (o : Option Value) : (embedOption o).isData = true := by
  cases o with
  | none => rfl
  | some v => exact isData_embed v

theorem isData_member (object : Ident) (k : Key) : (member object k).isData = true := by
  cases k <;> rfl

end Literal

namespace Definition

/-- **The definition that a slot comes to** at a position, if any: a hole comes to none, a name to
    the element there, a rest with a plain name to all elements from there on. -/
def ofSlot? (v : Value) (i : Nat) : Slot → Option Definition
  | .hole => none
  | .item target => some ⟨target, Literal.embedOption (elementAt? v i)⟩
  | .rest pattern =>
    (restName? pattern).map fun target => ⟨target, Literal.embed (elementsFrom v i)⟩

/-- **Slots come to definitions one by one**, and a rest among them has a plain name. -/
theorem exists_of_ofSlots_cons {v : Value} {module : String} {i : Nat} {slot : Slot}
    {slots : List Slot} {ds : List Definition}
    (h : ofSlots v module i (slot :: slots) = .ok ds) :
    ∃ rest, ofSlots v module (i + 1) slots = .ok rest ∧ ds = (ofSlot? v i slot).toList ++ rest ∧
      ∀ pattern, slot = .rest pattern → (restName? pattern).isSome = true := by
  cases slot with
  | hole =>
      refine ⟨ds, h, rfl, ?_⟩
      intro pattern hpattern
      cases hpattern
  | item target =>
      rw [ofSlots] at h
      cases hrest : ofSlots v module (i + 1) slots with
      | error failure =>
          rw [hrest] at h
          cases h
      | ok rest =>
          rw [hrest] at h
          cases h
          refine ⟨rest, rfl, rfl, ?_⟩
          intro pattern hpattern
          cases hpattern
  | rest pattern =>
      rw [ofSlots_rest] at h
      rw [ofSlot?]
      cases hname : restName? pattern with
      | none =>
          rw [hname] at h
          cases h
      | some target =>
          rw [hname] at h
          cases hrest : ofSlots v module (i + 1) slots with
          | error failure =>
              rw [hrest] at h
              cases h
          | ok rest =>
              rw [hrest] at h
              cases h
              refine ⟨rest, rfl, rfl, ?_⟩
              rintro _ ⟨⟩
              rw [hname]
              rfl

/-- Definitions that are picked from an object are there only if the data is one. -/
theorem eq_of_entries? {v : Value} {failure : Failure} {f : Entries → List Definition}
    {ds : List Definition}
    (h : (match v.entries? with
      | some entries => .ok (f entries)
      | none => .error failure : Except Failure (List Definition)) = .ok ds) :
    ∃ entries, ds = f entries := by
  cases hentries : v.entries? with
  | none =>
      rw [hentries] at h
      cases h
  | some entries =>
      rw [hentries] at h
      cases h
      exact ⟨entries, rfl⟩

/-- The value that a slot takes is data. -/
theorem isData_ofSlot? {v : Value} {i : Nat} {slot : Slot} {d : Definition}
    (h : ofSlot? v i slot = some d) : d.value.isData = true := by
  cases slot with
  | hole => exact nomatch h
  | item target =>
      cases h
      exact Literal.isData_embedOption _
  | rest pattern =>
      obtain ⟨target, -, rfl⟩ := Option.map_eq_some_iff.mp h
      exact Literal.isData_embed _

/-- The values that slots take are data. -/
theorem isData_ofSlots {v : Value} {module : String} {i : Nat} {slots : List Slot}
    {ds : List Definition} (h : ofSlots v module i slots = .ok ds) :
    ∀ d ∈ ds, d.value.isData = true := by
  induction slots generalizing i ds with
  | nil =>
      cases h
      exact fun _ hd => nomatch hd
  | cons slot slots ih =>
      obtain ⟨rest, hrest, rfl, -⟩ := exists_of_ofSlots_cons h
      intro d hd
      rcases List.mem_append.mp hd with hhere | hd
      · exact isData_ofSlot? (Option.mem_toList.mp hhere)
      · exact ih hrest d hd

/-- **The value of every definition is data**, whatever the shape. -/
theorem isData_ofShape {shape : Shape} {v : Value} {module : String} {ds : List Definition}
    (h : ofShape shape v module = .ok ds) : ∀ d ∈ ds, d.value.isData = true := by
  have hwhole : ∀ target : Binding, ∀ d ∈ [(⟨target, Literal.embed v⟩ : Definition)],
      d.value.isData = true := by
    intro target d hd
    rw [List.mem_singleton.mp hd]
    exact Literal.isData_embed v
  cases shape with
  | defaultImport target =>
      cases h
      exact hwhole _
  | starImport target =>
      cases h
      exact hwhole _
  | wholeRequire target =>
      cases h
      exact hwhole _
  | defaultAndStar target star =>
      cases h
      refine List.forall_mem_cons.mpr ⟨Literal.isData_embed v, ?_⟩
      intro d hd
      rw [List.mem_singleton.mp hd]
      rfl
  | namedImport picks =>
      obtain ⟨entries, rfl⟩ := eq_of_entries? h
      intro d hd
      obtain ⟨p, -, rfl⟩ := List.mem_map.mp hd
      exact Literal.isData_embedOption _
  | fieldRequire fields =>
      obtain ⟨entries, rfl⟩ := eq_of_entries? h
      intro d hd
      obtain ⟨f, -, rfl⟩ := List.mem_map.mp hd
      exact Literal.isData_embedOption _
  | defaultAndNamed target picks =>
      obtain ⟨entries, rfl⟩ := eq_of_entries? (f := fun _ =>
        ⟨target.binding, Literal.embed v⟩ :: ofReads target picks) h
      refine List.forall_mem_cons.mpr ⟨Literal.isData_embed v, ?_⟩
      intro d hd
      obtain ⟨p, -, rfl⟩ := List.mem_map.mp hd
      exact Literal.isData_member target p.key
  | slotRequire slots =>
      rw [ofShape] at h
      by_cases hpositions : hasPositions v = true
      · rw [if_pos hpositions] at h
        exact isData_ofSlots h
      · rw [if_neg hpositions] at h
        cases h
  | unsupported =>
      cases h
      intro d hd
      cases hd

end Definition

end Inlay
