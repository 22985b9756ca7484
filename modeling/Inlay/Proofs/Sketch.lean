import Inlay.Definition

/-!
# What shapes see of the code

A run replaces children of declarations and of module bodies, and of nothing else. The **sketch** of
a tree leaves exactly these children out, so a tree and what a run makes of it have one sketch. Here
we show that sorting into shapes looks at no more than the sketch: a declarator asks for the same
module in the same shape whatever was replaced below it.

* `Node.sketch` and `Node.isPlain`: a plain tree has nothing to leave out, and
  `sketch_eq_iff_of_isPlain` says that it has no other tree for its sketch.
* `requireSource?_eq_some_iff`, `fieldOf?_eq_some_iff`, `slotOf?_eq_some_iff` and
  `lastSlotOf?_eq_some_iff` say which nodes the readers of shapes take.
* `ofDeclarator_sketch`: the shape of a sketch is the sketch of the shape; they differ only below a
  rest pattern.
* `ofShape_sketch`: the definitions of a shape do not see that difference.
-/

namespace Inlay

namespace Code

/-- **An open form**: its children are a list in which a run may replace some. -/
def Form.isOpen : Form → Bool
  | .declaration _ | .moduleBody => true
  | _ => false

namespace Node

mutual

/-- **The sketch of a node**: the children of open nodes are left out. -/
def sketch : Node → Node
  | node form children => node form (if form.isOpen then [] else sketchAll children)

/-- The sketches of nodes. -/
def sketchAll : List Node → List Node
  | [] => []
  | n :: rest => sketch n :: sketchAll rest

end

mutual

/-- **A plain tree** has no open nodes. -/
def isPlain : Node → Bool
  | node form children => !form.isOpen && isPlainAll children

/-- All of the trees are plain. -/
def isPlainAll : List Node → Bool
  | [] => true
  | n :: rest => isPlain n && isPlainAll rest

end

@[simp] theorem sketchAll_nil : sketchAll [] = [] := rfl

@[simp] theorem sketchAll_cons (n : Node) (rest : List Node) :
    sketchAll (n :: rest) = n.sketch :: sketchAll rest := rfl

/-- Below a closed form every child is sketched. -/
theorem sketch_of_closed {form : Form} (h : form.isOpen = false) (children : List Node) :
    sketch (node form children) = node form (sketchAll children) := by
  rw [sketch, h]
  rfl

mutual

/-- A sketch is plain only if the tree is. -/
theorem isPlain_sketch : ∀ n : Node, n.sketch.isPlain = n.isPlain
  | node form children => by
      cases h : form.isOpen with
      | true => rw [sketch, isPlain, isPlain, h]; rfl
      | false =>
          rw [sketch_of_closed h, isPlain, isPlain, isPlainAll_sketchAll children]

/-- Sketches are plain only if the trees are. -/
theorem isPlainAll_sketchAll : ∀ ns : List Node, isPlainAll (sketchAll ns) = isPlainAll ns
  | [] => rfl
  | n :: rest => by
      rw [sketchAll_cons, isPlainAll, isPlainAll, isPlain_sketch n, isPlainAll_sketchAll rest]

end

mutual

/-- A plain tree is its own sketch. -/
theorem sketch_of_isPlain : ∀ n : Node, n.isPlain = true → n.sketch = n
  | node form children, h => by
      rw [isPlain, Bool.and_eq_true, Bool.not_eq_true'] at h
      rw [sketch_of_closed h.1, sketchAll_of_isPlainAll children h.2]

/-- Plain trees are their own sketches. -/
theorem sketchAll_of_isPlainAll :
    ∀ ns : List Node, isPlainAll ns = true → sketchAll ns = ns
  | [], _ => rfl
  | n :: rest, h => by
      rw [isPlainAll, Bool.and_eq_true] at h
      rw [sketchAll_cons, sketch_of_isPlain n h.1, sketchAll_of_isPlainAll rest h.2]

end

/-- **A plain tree is the sketch of itself only.** -/
theorem sketch_eq_iff_of_isPlain {n t : Node} (h : t.isPlain = true) : n.sketch = t ↔ n = t := by
  constructor
  · intro hn
    have hplain : n.isPlain = true := by rw [← isPlain_sketch n, hn, h]
    rw [← sketch_of_isPlain n hplain, hn]
  · intro hn
    rw [hn, sketch_of_isPlain t h]

end Node

end Code

open Code

/-! ## Which nodes the readers take -/

/-- A required module: the node is a call of `require` with one string literal. -/
theorem requireSource?_eq_some_iff {n : Node} {source : String} :
    requireSource? n = some source ↔
      ∃ callee : Ident, callee.name = "require" ∧
        n = .node .call [.reference callee, .text source] := by
  constructor
  · intro h
    rw [requireSource?.eq_def] at h
    split at h
    · rename_i callee s
      by_cases hname : callee.name = "require"
      · rw [if_pos hname] at h
        exact ⟨callee, hname, by rw [Option.some.inj h]⟩
      · rw [if_neg hname] at h
        exact nomatch h
    · exact nomatch h
  · rintro ⟨callee, hname, rfl⟩
    rw [requireSource?, if_pos hname]

namespace Shape

/-- A field: just a name without default, or a plain key with a name. -/
theorem fieldOf?_eq_some_iff {n : Node} {field : String × Binding} :
    fieldOf? n = some field ↔
      (n = .node (.fieldPattern field.2) [.absent] ∧ field.1 = field.2.ident.name) ∨
        n = .node .entryPattern [.node (.nameKey field.1) [], .binding field.2] := by
  obtain ⟨key, target⟩ := field
  constructor
  · intro h
    rw [fieldOf?.eq_def] at h
    split at h
    · cases h
      exact Or.inl ⟨rfl, rfl⟩
    · cases h
      exact Or.inr rfl
    · exact nomatch h
  · rintro (⟨rfl, hkey⟩ | rfl)
    · rw [fieldOf?]
      exact congrArg (fun k => some (k, target)) hkey.symm
    · rfl

/-- An element before the last: a hole or a name. -/
theorem slotOf?_eq_some_iff {n : Node} {slot : Slot} :
    slotOf? n = some slot ↔
      (n = .absent ∧ slot = .hole) ∨ ∃ target, n = .binding target ∧ slot = .item target := by
  constructor
  · intro h
    rw [slotOf?.eq_def] at h
    split at h
    · cases h
      exact Or.inl ⟨rfl, rfl⟩
    · rename_i target
      cases h
      exact Or.inr ⟨target, rfl, rfl⟩
    · exact nomatch h
  · rintro (⟨rfl, rfl⟩ | ⟨target, rfl, rfl⟩)
    · rfl
    · rfl

/-- The last element: a name or a rest pattern. -/
theorem lastSlotOf?_eq_some_iff {n : Node} {slot : Slot} :
    lastSlotOf? n = some slot ↔
      (∃ target, n = .binding target ∧ slot = .item target) ∨
        ∃ type children, n = .node (.restPattern type) children ∧ slot = .rest n := by
  constructor
  · intro h
    rw [lastSlotOf?.eq_def] at h
    split at h
    · rename_i target
      cases h
      exact Or.inl ⟨target, rfl, rfl⟩
    · rename_i type children
      cases h
      exact Or.inr ⟨type, children, rfl, rfl⟩
    · exact nomatch h
  · rintro (⟨target, rfl, rfl⟩ | ⟨type, children, rfl, rfl⟩)
    · rfl
    · rfl

end Shape

/-! ## Shapes of sketches -/

/-- A slot with its rest pattern sketched. -/
def Slot.sketch : Slot → Slot
  | hole => hole
  | item target => item target
  | rest pattern => rest pattern.sketch

/-- A shape with its rest pattern sketched. -/
def Shape.sketch : Shape → Shape
  | slotRequire slots => slotRequire (slots.map Slot.sketch)
  | shape => shape

/-- The required module is seen in the sketch. -/
theorem requireSource?_sketch (n : Node) : requireSource? n.sketch = requireSource? n := by
  apply Option.ext
  intro source
  rw [requireSource?_eq_some_iff, requireSource?_eq_some_iff]
  constructor
  · rintro ⟨callee, hname, hn⟩
    exact ⟨callee, hname, (Node.sketch_eq_iff_of_isPlain rfl).mp hn⟩
  · rintro ⟨callee, hname, hn⟩
    exact ⟨callee, hname, (Node.sketch_eq_iff_of_isPlain rfl).mpr hn⟩

namespace Shape

@[simp] theorem kind_sketch (shape : Shape) : shape.sketch.kind = shape.kind := by
  cases shape <;> rfl

@[simp] theorem isSupported_sketch (shape : Shape) :
    shape.sketch.isSupported = shape.isSupported := by
  cases shape <;> rfl

/-- A field is seen in the sketch. -/
theorem fieldOf?_sketch (n : Node) : fieldOf? n.sketch = fieldOf? n := by
  apply Option.ext
  intro field
  rw [fieldOf?_eq_some_iff, fieldOf?_eq_some_iff, Node.sketch_eq_iff_of_isPlain rfl,
    Node.sketch_eq_iff_of_isPlain rfl]

/-- All fields are seen in the sketch. -/
theorem mapM_fieldOf?_sketchAll (entries : List Node) :
    (Node.sketchAll entries).mapM fieldOf? = entries.mapM fieldOf? := by
  induction entries with
  | nil => rfl
  | cons entry rest ih =>
      rw [Node.sketchAll_cons, List.mapM_cons, List.mapM_cons, fieldOf?_sketch, ih]

/-- A hole or a name is seen in the sketch. -/
theorem slotOf?_sketch (n : Node) : slotOf? n.sketch = (slotOf? n).map Slot.sketch := by
  have hsame : (slotOf? n).map Slot.sketch = slotOf? n := by
    cases h : slotOf? n with
    | none => rfl
    | some slot =>
        obtain ⟨-, rfl⟩ | ⟨target, -, rfl⟩ := slotOf?_eq_some_iff.mp h
        · rfl
        · rfl
  rw [hsame]
  apply Option.ext
  intro slot
  rw [slotOf?_eq_some_iff, slotOf?_eq_some_iff, Node.sketch_eq_iff_of_isPlain rfl]
  constructor
  · rintro (h | ⟨target, hn, hslot⟩)
    · exact Or.inl h
    · exact Or.inr ⟨target, (Node.sketch_eq_iff_of_isPlain rfl).mp hn, hslot⟩
  · rintro (h | ⟨target, hn, hslot⟩)
    · exact Or.inl h
    · exact Or.inr ⟨target, (Node.sketch_eq_iff_of_isPlain rfl).mpr hn, hslot⟩

/-- The last slot is seen in the sketch, up to what is below a rest pattern. -/
theorem lastSlotOf?_sketch (n : Node) :
    lastSlotOf? n.sketch = (lastSlotOf? n).map Slot.sketch := by
  obtain ⟨form, children⟩ := n
  cases form with
  | binding target =>
      cases children with
      | nil => rfl
      | cons c rest => rfl
  -- the slot keeps the whole pattern, so it is sketched along with it
  | restPattern type => rfl
  | _ => rfl

/-- Before the last element there are only holes and names. -/
theorem slotsOf?_cons_cons (element next : Node) (rest : List Node) :
    slotsOf? (element :: next :: rest)
      = (slotOf? element).bind fun slot =>
          (slotsOf? (next :: rest)).map fun slots => slot :: slots := by
  rw [slotsOf?]
  · cases slotOf? element with
    | none => rfl
    | some slot => cases slotsOf? (next :: rest) <;> rfl
  · exact nofun

/-- **The first slot of a list pattern** is that of its first element, which is the last one or has
    the other slots behind it. -/
theorem exists_of_slotsOf?_cons {element : Node} {rest : List Node} {slots : List Slot}
    (h : slotsOf? (element :: rest) = some slots) :
    (∃ slot, rest = [] ∧ lastSlotOf? element = some slot ∧ slots = [slot]) ∨
      ∃ slot others, slotOf? element = some slot ∧ slotsOf? rest = some others ∧
        slots = slot :: others := by
  cases rest with
  | nil =>
      rw [slotsOf?] at h
      obtain ⟨slot, hslot, hslots⟩ := Option.bind_eq_some_iff.mp h
      cases hslots
      exact Or.inl ⟨slot, rfl, hslot, rfl⟩
  | cons next more =>
      rw [slotsOf?_cons_cons] at h
      obtain ⟨slot, hslot, hmap⟩ := Option.bind_eq_some_iff.mp h
      obtain ⟨others, hothers, rfl⟩ := Option.map_eq_some_iff.mp hmap
      exact Or.inr ⟨slot, others, hslot, hothers, rfl⟩

/-- The slots are seen in the sketch. -/
theorem slotsOf?_sketchAll (elements : List Node) :
    slotsOf? (Node.sketchAll elements) = (slotsOf? elements).map (List.map Slot.sketch) := by
  induction elements with
  | nil => rfl
  | cons element rest ih =>
      cases rest with
      | nil =>
          rw [Node.sketchAll_cons, Node.sketchAll_nil, slotsOf?, slotsOf?, lastSlotOf?_sketch]
          cases lastSlotOf? element <;> rfl
      | cons next rest =>
          rw [Node.sketchAll_cons, Node.sketchAll_cons, slotsOf?_cons_cons, slotsOf?_cons_cons,
            slotOf?_sketch, ← Node.sketchAll_cons, ih]
          cases slotOf? element with
          | none => rfl
          | some slot => cases slotsOf? (next :: rest) <;> rfl

/-- **The shape of a sketched pattern** is the sketched shape. -/
theorem ofTarget_sketch (target : Node) : ofTarget target.sketch = (ofTarget target).sketch := by
  obtain ⟨form, children⟩ := target
  cases form with
  | binding target =>
      cases children with
      | nil => rfl
      | cons c rest => rfl
  | objectPattern type =>
      rw [Node.sketch_of_closed rfl, ofTarget, ofTarget, mapM_fieldOf?_sketchAll]
      rcases children.mapM fieldOf? with _ | ⟨_ | ⟨field, fields⟩⟩ <;> rfl
  | listPattern type =>
      rw [Node.sketch_of_closed rfl, ofTarget, ofTarget, slotsOf?_sketchAll]
      cases slotsOf? children <;> rfl
  | _ => rfl

/-- **The shape of a sketched declarator** is the sketched shape. -/
theorem ofDeclarator_sketch (accepts : String → Bool) (n : Node) :
    ofDeclarator accepts n.sketch = (ofDeclarator accepts n).sketch := by
  obtain ⟨form, children⟩ := n
  cases form with
  | declarator definite =>
      rcases children with _ | ⟨target, _ | ⟨init, _ | ⟨c, rest⟩⟩⟩
      · rfl
      · rfl
      · rw [Node.sketch_of_closed rfl, Node.sketchAll_cons, Node.sketchAll_cons,
          Node.sketchAll_nil, ofDeclarator, ofDeclarator, requireSource?_sketch]
        cases requireSource? init with
        | none => rfl
        | some source =>
            show (if accepts source then ofTarget target.sketch else unsupported)
              = (if accepts source then ofTarget target else unsupported).sketch
            by_cases haccepts : accepts source = true
            · rw [if_pos haccepts, if_pos haccepts]
              exact ofTarget_sketch target
            · rw [if_neg haccepts, if_neg haccepts]
              rfl
      · rfl
  | _ => rfl

end Shape

/-- The initialiser of a sketch is the sketched initialiser. -/
theorem init_sketch (n : Node) : n.sketch.init = n.init.sketch := by
  obtain ⟨form, children⟩ := n
  cases form with
  | declarator definite =>
      rcases children with _ | ⟨target, _ | ⟨init, _ | ⟨c, rest⟩⟩⟩ <;> rfl
  | _ => rfl

/-! ## Definitions of sketched shapes -/

namespace Definition

/-- The name that a rest pattern gives to the rest, if it is a plain one. -/
def restName? : Node → Option Binding
  | .node (.restPattern _) [.binding target] => some target
  | _ => none

theorem restName?_eq_some_iff {n : Node} {target : Binding} :
    restName? n = some target ↔
      ∃ type, n = .node (.restPattern type) [.binding target] := by
  constructor
  · intro h
    rw [restName?.eq_def] at h
    split at h
    · rename_i type target
      cases h
      exact ⟨type, rfl⟩
    · exact nomatch h
  · rintro ⟨type, rfl⟩
    rfl

theorem restName?_sketch (n : Node) : restName? n.sketch = restName? n := by
  apply Option.ext
  intro target
  rw [restName?_eq_some_iff, restName?_eq_some_iff]
  constructor
  · rintro ⟨type, hn⟩
    exact ⟨type, (Node.sketch_eq_iff_of_isPlain rfl).mp hn⟩
  · rintro ⟨type, hn⟩
    exact ⟨type, (Node.sketch_eq_iff_of_isPlain rfl).mpr hn⟩

/-- Of a rest pattern the definitions take its plain name, or fail without one. -/
theorem ofSlots_rest (value : Json.Value) (module : String) (index : Nat) (pattern : Node)
    (slots : List Slot) :
    ofSlots value module index (.rest pattern :: slots)
      = match restName? pattern with
        | some target =>
            (ofSlots value module (index + 1) slots).map
              (⟨target, Literal.embed (elementsFrom value index)⟩ :: ·)
        | none => .error (.unsupportedRest module) := by
  cases h : restName? pattern with
  | some target =>
      obtain ⟨type, rfl⟩ := restName?_eq_some_iff.mp h
      rw [ofSlots]
      cases ofSlots value module (index + 1) slots <;> rfl
  | none =>
      rw [ofSlots]
      intro type target hpattern
      rw [hpattern] at h
      exact nomatch h

/-- The definitions of slots do not see below a rest pattern. -/
theorem ofSlots_sketch (value : Json.Value) (module : String) (index : Nat) (slots : List Slot) :
    ofSlots value module index (slots.map Slot.sketch) = ofSlots value module index slots := by
  induction slots generalizing index with
  | nil => rfl
  | cons slot slots ih =>
      cases slot with
      | hole => exact ih (index + 1)
      | item target =>
          rw [List.map_cons, Slot.sketch, ofSlots, ofSlots, ih]
      | rest pattern =>
          rw [List.map_cons, Slot.sketch, ofSlots_rest, ofSlots_rest, restName?_sketch, ih]

/-- **The definitions of a shape do not see below a rest pattern.** -/
theorem ofShape_sketch (shape : Shape) (value : Json.Value) (module : String) :
    ofShape shape.sketch value module = ofShape shape value module := by
  cases shape with
  | slotRequire slots =>
      rw [Shape.sketch, ofShape, ofShape, ofSlots_sketch]
  | _ => rfl

end Definition

end Inlay
