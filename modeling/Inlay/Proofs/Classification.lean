import Inlay.Proofs.Bindings
import Mathlib.Data.List.Forall2

/-!
# Which declarations have a shape

Imports and `require` declarators are told apart from everything else by a **grammar**: which lists
of specifiers an import may have, what a declarator requires, and which patterns it may assign the
module to. Each form of the grammar comes with its shape, and the forms do not overlap, so a
declaration has a shape exactly if it is of a form, and the shape is that of the form.

* `Picked`, `ImportClause`: the forms of imports.
* `RequireForm`: declarators that require a data module; `FieldForm`, `ElementForm`, `LastForm`,
  `TargetForm`: the forms of their patterns.
* `mapM_eq_some_iff_forall₂`: all-or-nothing reading of a list, element by element.
* `ImportClause.ofSpecifiers_eq`, `ImportClause.of_isSupported`: a clause has its shape, and only
  clauses have one.
* `slotsOf?_eq_some_iff`: the last element of a list pattern, and those before it;
  `TargetForm.slotsByPosition`: they keep their positions.
* `import_has_shape_of_its_clause`, `require_has_shape_of_its_target`: the two grammars.
-/

namespace Inlay

open Code

/-! ## Reading lists -/

/-- **A list is read as a whole** if each element is read, in order. -/
theorem mapM_eq_some_iff_forall₂ {α β : Type} {f : α → Option β} {xs : List α} {ys : List β} :
    xs.mapM f = some ys ↔ List.Forall₂ (fun x y => f x = some y) xs ys := by
  constructor
  · intro h
    induction xs generalizing ys with
    | nil =>
        cases h
        exact .nil
    | cons x xs ih =>
        obtain ⟨y, rest, hy, hrest, rfl⟩ := mapM_cons_eq_some_iff.mp h
        exact .cons hy (ih hrest)
  · intro h
    induction h with
    | nil => rfl
    | cons hy _ ih => exact mapM_cons_eq_some_iff.mpr ⟨_, _, hy, ih, rfl⟩

/-- If the supported values of a shape are told by their forms, it is supported if it has a form. -/
theorem Shape.isSupported_iff_exists {shape : Shape} {form : Shape → Prop}
    (h : ∀ other, (shape = other ∧ other.isSupported = true) ↔ form other) :
    shape.isSupported = true ↔ ∃ other, form other := by
  constructor
  · intro hsupported
    exact ⟨shape, (h shape).mp ⟨rfl, hsupported⟩⟩
  · rintro ⟨other, hform⟩
    obtain ⟨rfl, hsupported⟩ := (h other).mpr hform
    exact hsupported

/-! ## Imports -/

/-- **A named specifier**, not only of a type, and what it picks: the value of the key that it is
    imported by, written as it is, or else of its own name. -/
inductive Picked : Specifier → Pick → Prop where
  | keyed (target : Ident) (key : Key) : Picked (.named target (some key) false) ⟨key, target⟩
  | plain (target : Ident) : Picked (.named target none false) ⟨.name target.name, target⟩

/-- **The clauses of imports** and their shapes. -/
inductive ImportClause : List Specifier → Shape → Prop where
  | default (target : Ident) : ImportClause [.default target] (.defaultImport target)
  | star (target : Ident) : ImportClause [.star target] (.starImport target)
  | defaultAndStar (target star : Ident) :
      ImportClause [.default target, .star star] (.defaultAndStar target star)
  /-- Any number of named specifiers, also none. -/
  | named {specifiers : List Specifier} {picks : List Pick}
      (hpicks : List.Forall₂ Picked specifiers picks) :
      ImportClause specifiers (.namedImport picks)
  /-- A default and at least one named specifier. -/
  | defaultAndNamed (target : Ident) {specifiers : List Specifier} {picks : List Pick}
      (hpicks : List.Forall₂ Picked specifiers picks) (hne : specifiers ≠ []) :
      ImportClause (.default target :: specifiers) (.defaultAndNamed target picks)

/-- The names that the shape of an import binds, in order. -/
def Shape.locals : Shape → List Ident
  | defaultImport target | starImport target => [target]
  | defaultAndStar target star => [target, star]
  | namedImport picks => picks.map Pick.target
  | defaultAndNamed target picks => target :: picks.map Pick.target
  | _ => []

theorem Shape.pickOf?_eq_some_iff {specifier : Specifier} {pick : Pick} :
    pickOf? specifier = some pick ↔ Picked specifier pick := by
  constructor
  · fun_cases pickOf? specifier with
    | case1 target key =>
        rintro ⟨⟩
        exact .keyed target key
    | case2 target =>
        rintro ⟨⟩
        exact .plain target
    | case3 => exact nofun
  · rintro (⟨target, key⟩ | ⟨target⟩)
    · rfl
    · rfl

/-- Specifiers are read as picks if they are named ones. -/
theorem Shape.picksOf?_eq_some_iff {specifiers : List Specifier} {picks : List Pick} :
    picksOf? specifiers = some picks ↔ List.Forall₂ Picked specifiers picks := by
  rw [picksOf?, mapM_eq_some_iff_forall₂]
  simp only [pickOf?_eq_some_iff]

namespace ImportClause

variable {specifiers : List Specifier} {shape : Shape}

theorem isSupported (h : ImportClause specifiers shape) : shape.isSupported = true := by
  cases h <;> rfl

/-- Named specifiers have a shape of their own: none of the clauses before them is one of them. -/
theorem ofSpecifiers_of_named {picks : List Pick} (h : List.Forall₂ Picked specifiers picks) :
    Shape.ofSpecifiers specifiers = .namedImport picks := by
  have hpicks := Shape.picksOf?_eq_some_iff.mpr h
  cases h with
  | nil => rfl
  | cons hpick hrest =>
      cases hpick <;> (rw [Shape.ofSpecifiers, hpicks] <;> exact nofun)

/-- A default before named specifiers is taken apart from them. -/
theorem ofSpecifiers_of_default_named (target : Ident) {picks : List Pick}
    (h : List.Forall₂ Picked specifiers picks) (hne : specifiers ≠ []) :
    Shape.ofSpecifiers (.default target :: specifiers) = .defaultAndNamed target picks := by
  have hpicks := Shape.picksOf?_eq_some_iff.mpr h
  cases h with
  | nil => exact absurd rfl hne
  | cons hpick hrest =>
      cases hpick <;> (rw [Shape.ofSpecifiers, hpicks] <;> exact nofun)

/-- **A clause has its shape.** -/
theorem ofSpecifiers_eq (h : ImportClause specifiers shape) :
    Shape.ofSpecifiers specifiers = shape := by
  cases h with
  | default target => rfl
  | star target => rfl
  | defaultAndStar target star => rfl
  | named hpicks => exact ofSpecifiers_of_named hpicks
  | defaultAndNamed target hpicks hne => exact ofSpecifiers_of_default_named target hpicks hne

/-- **Specifiers that have a shape are a clause.** -/
theorem of_isSupported (h : (Shape.ofSpecifiers specifiers).isSupported = true) :
    ImportClause specifiers (Shape.ofSpecifiers specifiers) := by
  revert h
  fun_cases Shape.ofSpecifiers specifiers with
  | case1 target => exact fun _ => .default target
  | case2 target => exact fun _ => .star target
  | case3 target star => exact fun _ => .defaultAndStar target star
  | case4 target rest hne _ picks hpicks =>
      refine fun _ => .defaultAndNamed target (Shape.picksOf?_eq_some_iff.mp hpicks) ?_
      rintro rfl
      exact hne rfl
  | case5 =>
      intro h
      cases h
  | case6 specifiers _ _ _ _ picks hpicks =>
      exact fun _ => .named (Shape.picksOf?_eq_some_iff.mp hpicks)
  | case7 =>
      intro h
      cases h

/-- Named specifiers bind the names of their picks. -/
theorem map_target_of_picked {picks : List Pick} (h : List.Forall₂ Picked specifiers picks) :
    picks.map Pick.target = specifiers.map Specifier.target := by
  induction h with
  | nil => rfl
  | cons hpick _ ih =>
      rw [List.map_cons, List.map_cons, ih]
      cases hpick <;> rfl

/-- A clause binds the names of its specifiers, in order. -/
theorem locals_eq (h : ImportClause specifiers shape) :
    shape.locals = specifiers.map Specifier.target := by
  cases h with
  | default target => rfl
  | star target => rfl
  | defaultAndStar target star => rfl
  | named hpicks => exact map_target_of_picked hpicks
  | defaultAndNamed target hpicks _ =>
      exact congrArg (target :: ·) (map_target_of_picked hpicks)

end ImportClause

/-- The shape of an import is that of its specifiers, unless it loads no data. -/
theorem Shape.ofImport_eq_iff {decl : Import} {shape : Shape} (h : shape.isSupported = true) :
    ofImport decl = shape ↔
      decl.typeOnly = false ∧ decl.phase = .evaluation ∧ ofSpecifiers decl.specifiers = shape := by
  rw [ofImport]
  split
  case isTrue hother =>
      constructor
      · rintro rfl
        cases h
      · rintro ⟨htype, hphase, -⟩
        rw [htype, hphase] at hother
        cases hother
  case isFalse hother =>
      rw [Bool.or_eq_true, bne_iff_ne, not_or, Bool.not_eq_true, not_not] at hother
      exact ⟨fun hshape => ⟨hother.1, hother.2, hshape⟩, fun hclause => hclause.2.2⟩

/-- **Imports have the shape of their clause.** An import has a shape if it is not only of types, is
    evaluated in the normal phase, and its specifiers are a clause of the grammar; the shape is then
    that of the clause, and it binds the names of the specifiers in order. -/
theorem import_has_shape_of_its_clause (decl : Import) :
    (∀ shape, (Shape.ofImport decl = shape ∧ shape.isSupported = true) ↔
      decl.typeOnly = false ∧ decl.phase = .evaluation ∧
        ImportClause decl.specifiers shape) ∧
    ((Shape.ofImport decl).isSupported = true ↔
      decl.typeOnly = false ∧ decl.phase = .evaluation ∧
        ∃ shape, ImportClause decl.specifiers shape) ∧
    (Shape.ofImport decl).locals
      = if (Shape.ofImport decl).isSupported then decl.specifiers.map Specifier.target else [] := by
  have hshape : ∀ shape, (Shape.ofImport decl = shape ∧ shape.isSupported = true) ↔
      decl.typeOnly = false ∧ decl.phase = .evaluation ∧
        ImportClause decl.specifiers shape := by
    intro shape
    constructor
    · rintro ⟨heq, hsupported⟩
      obtain ⟨htype, hphase, rfl⟩ := (Shape.ofImport_eq_iff hsupported).mp heq
      exact ⟨htype, hphase, .of_isSupported hsupported⟩
    · rintro ⟨htype, hphase, hclause⟩
      exact ⟨(Shape.ofImport_eq_iff hclause.isSupported).mpr
        ⟨htype, hphase, hclause.ofSpecifiers_eq⟩, hclause.isSupported⟩
  refine ⟨hshape, ?_, ?_⟩
  · rw [Shape.isSupported_iff_exists hshape, exists_and_left, exists_and_left]
  · split
    case isTrue hsupported => exact ((hshape _).mp ⟨rfl, hsupported⟩).2.2.locals_eq
    case isFalse hsupported =>
        cases hnone : Shape.ofImport decl with
        | unsupported => rfl
        | _ =>
            rw [hnone] at hsupported
            exact absurd rfl hsupported

/-! ## Requires -/

/-- **A declarator that requires a data module** into a pattern: its initialiser is a plain call of
    the name `require` with one string literal, which is accepted. -/
inductive RequireForm (accepts : String → Bool) : Node → Node → Prop where
  | intro (definite : Bool) (target : Node) (callee : Ident) (source : String)
      (hcallee : callee.name = "require") (haccepts : accepts source = true) :
      RequireForm accepts
        (.declarator definite target (.node .call [.reference callee, .text source])) target

/-- **An entry of an object pattern** that takes one key: just a name without default, or a plain
    key with a name. -/
inductive FieldForm : Node → String × Binding → Prop where
  | short (target : Binding) :
      FieldForm (.node (.fieldPattern target) [.absent]) (target.ident.name, target)
  | keyed (key : String) (target : Binding) :
      FieldForm (.node .entryPattern [.node (.nameKey key) [], .binding target]) (key, target)

/-- **An element of a list pattern** before the last one: a hole or a name. -/
inductive ElementForm : Node → Slot → Prop where
  | hole : ElementForm .absent .hole
  | name (target : Binding) : ElementForm (.binding target) (.item target)

/-- **The last element of a list pattern**: a name, or a rest with any argument. -/
inductive LastForm : Node → Slot → Prop where
  | name (target : Binding) : LastForm (.binding target) (.item target)
  | rest (type : Option String) (arguments : List Node) :
      LastForm (.node (.restPattern type) arguments) (.rest (.node (.restPattern type) arguments))

/-- **The patterns that a module can be assigned to** and their shapes. -/
inductive TargetForm : Node → Shape → Prop where
  | whole (target : Binding) : TargetForm (.binding target) (.wholeRequire target)
  /-- An object pattern with at least one entry. -/
  | fields (type : Option String) {entries : List Node} {fields : List (String × Binding)}
      (hfields : List.Forall₂ FieldForm entries fields) (hne : entries ≠ []) :
      TargetForm (.node (.objectPattern type) entries) (.fieldRequire fields)
  | slots (type : Option String) {before : List Node} {front : List Slot} {last : Node}
      {slot : Slot} (hbefore : List.Forall₂ ElementForm before front) (hlast : LastForm last slot) :
      TargetForm (.node (.listPattern type) (before ++ [last])) (.slotRequire (front ++ [slot]))

/-- **Slots by position**: as many as elements, each for the element at its position, and a rest at
    the last position only. -/
structure SlotsByPosition (elements : List Node) (slots : List Slot) : Prop where
  length_eq : slots.length = elements.length
  form : ∀ i element slot, elements[i]? = some element → slots[i]? = some slot →
    ElementForm element slot ∨ (LastForm element slot ∧ i + 1 = elements.length)

namespace Shape

theorem fieldOf?_eq_some_iff_form {entry : Node} {field : String × Binding} :
    fieldOf? entry = some field ↔ FieldForm entry field := by
  rw [fieldOf?_eq_some_iff]
  obtain ⟨key, target⟩ := field
  constructor
  · rintro (⟨rfl, hkey⟩ | rfl)
    · obtain rfl : key = target.ident.name := hkey
      exact .short target
    · exact .keyed key target
  · rintro (⟨target⟩ | ⟨key, target⟩)
    · exact Or.inl ⟨rfl, rfl⟩
    · exact Or.inr rfl

theorem slotOf?_eq_some_iff_form {element : Node} {slot : Slot} :
    slotOf? element = some slot ↔ ElementForm element slot := by
  rw [slotOf?_eq_some_iff]
  constructor
  · rintro (⟨rfl, rfl⟩ | ⟨target, rfl, rfl⟩)
    · exact .hole
    · exact .name target
  · rintro (- | ⟨target⟩)
    · exact Or.inl ⟨rfl, rfl⟩
    · exact Or.inr ⟨target, rfl, rfl⟩

theorem lastSlotOf?_eq_some_iff_form {last : Node} {slot : Slot} :
    lastSlotOf? last = some slot ↔ LastForm last slot := by
  rw [lastSlotOf?_eq_some_iff]
  constructor
  · rintro (⟨target, rfl, rfl⟩ | ⟨type, arguments, rfl, rfl⟩)
    · exact .name target
    · exact .rest type arguments
  · rintro (⟨target⟩ | ⟨type, arguments⟩)
    · exact Or.inl ⟨target, rfl, rfl⟩
    · exact Or.inr ⟨type, arguments, rfl, rfl⟩

/-- **The slots of a list pattern** are those of the elements before the last, and the last one. -/
theorem slotsOf?_eq_some_iff {elements : List Node} {slots : List Slot} :
    slotsOf? elements = some slots ↔
      ∃ before last front slot, elements = before ++ [last] ∧ slots = front ++ [slot] ∧
        List.Forall₂ ElementForm before front ∧ LastForm last slot := by
  constructor
  · intro h
    induction elements generalizing slots with
    | nil => cases h
    | cons element rest ih =>
        obtain ⟨slot, rfl, hslot, rfl⟩ | ⟨slot, others, hslot, hothers, rfl⟩ :=
          exists_of_slotsOf?_cons h
        · exact ⟨[], element, [], slot, rfl, rfl, .nil, lastSlotOf?_eq_some_iff_form.mp hslot⟩
        · obtain ⟨before, last, front, lastSlot, rfl, rfl, hbefore, hlast⟩ := ih hothers
          exact ⟨element :: before, last, slot :: front, lastSlot, rfl, rfl,
            .cons (slotOf?_eq_some_iff_form.mp hslot) hbefore, hlast⟩
  · rintro ⟨before, last, front, slot, rfl, rfl, hbefore, hlast⟩
    induction hbefore with
    | nil =>
        rw [List.nil_append, List.nil_append, slotsOf?, lastSlotOf?_eq_some_iff_form.mpr hlast]
        rfl
    | @cons element elementSlot before front helement _ ih =>
        -- what is behind the element is not empty, so the element is not the last one
        obtain ⟨next, more, hrest⟩ :=
          List.exists_cons_of_ne_nil (List.append_ne_nil_of_right_ne_nil before
            (List.cons_ne_nil last []))
        rw [hrest] at ih
        rw [List.cons_append, List.cons_append, hrest, slotsOf?_cons_cons, ih,
          slotOf?_eq_some_iff_form.mpr helement]
        rfl

/-- **A pattern has a shape exactly if it has a form.** -/
theorem ofTarget_eq_iff {target : Node} {shape : Shape} (h : shape.isSupported = true) :
    ofTarget target = shape ↔ TargetForm target shape := by
  constructor
  · rintro rfl
    revert h
    fun_cases ofTarget target with
    | case1 target => exact fun _ => .whole target
    | case2 type entries field fields hfields =>
        rw [mapM_eq_some_iff_forall₂] at hfields
        simp only [fieldOf?_eq_some_iff_form] at hfields
        refine fun _ => .fields type hfields ?_
        rintro rfl
        cases hfields
    | case4 type elements slots hslots =>
        obtain ⟨before, last, front, slot, rfl, rfl, hbefore, hlast⟩ :=
          slotsOf?_eq_some_iff.mp hslots
        exact fun _ => .slots type hbefore hlast
    | _ =>
        intro h
        cases h
  · intro hform
    cases hform with
    | whole target => rfl
    | @fields type entries fields hfields hne =>
        have hread : entries.mapM fieldOf? = some fields := by
          rw [mapM_eq_some_iff_forall₂]
          simpa only [fieldOf?_eq_some_iff_form] using hfields
        cases hfields with
        | nil => exact absurd rfl hne
        | cons _ _ => rw [ofTarget, hread]
    | slots type hbefore hlast =>
        rw [ofTarget, slotsOf?_eq_some_iff.mpr ⟨_, _, _, _, rfl, rfl, hbefore, hlast⟩]

/-- **A declarator has the shape of its pattern** if it requires a data module. -/
theorem ofDeclarator_eq_iff {accepts : String → Bool} {n : Node} {shape : Shape}
    (h : shape.isSupported = true) :
    ofDeclarator accepts n = shape ↔
      ∃ target, RequireForm accepts n target ∧ ofTarget target = shape := by
  constructor
  · rintro rfl
    revert h
    fun_cases ofDeclarator accepts n with
    | case1 definite target init source hsource haccepts =>
        obtain ⟨callee, hcallee, rfl⟩ := requireSource?_eq_some_iff.mp hsource
        exact fun _ => ⟨target, .intro definite target callee source hcallee haccepts, rfl⟩
    | _ =>
        intro h
        cases h
  · rintro ⟨target, ⟨definite, target, callee, source, hcallee, haccepts⟩, rfl⟩
    rw [ofDeclarator, requireSource?_eq_some_iff.mpr ⟨callee, hcallee, rfl⟩]
    exact if_pos haccepts

end Shape

/-- Every form is supported. -/
theorem TargetForm.isSupported {target : Node} {shape : Shape} (h : TargetForm target shape) :
    shape.isSupported = true := by
  cases h <;> rfl

/-- **The slots of a list pattern stand at the positions of its elements.** -/
theorem TargetForm.slotsByPosition {type : Option String} {elements : List Node}
    {slots : List Slot}
    (h : TargetForm (.node (.listPattern type) elements) (.slotRequire slots)) :
    SlotsByPosition elements slots := by
  cases h with
  | @slots _ before front last slot hbefore hlast =>
      have hlength := hbefore.length_eq
      refine ⟨by simp [hlength], ?_⟩
      intro i element slot' helement hslot
      rcases Nat.lt_or_ge i before.length with hi | hi
      · rw [List.getElem?_append_left hi] at helement
        rw [List.getElem?_append_left (hlength ▸ hi)] at hslot
        obtain ⟨hbound, rfl⟩ := List.getElem?_eq_some_iff.mp helement
        obtain ⟨hbound', rfl⟩ := List.getElem?_eq_some_iff.mp hslot
        exact Or.inl (hbefore.get hbound hbound')
      · -- only the position of the last element is left
        have hbound := (List.getElem?_eq_some_iff.mp helement).1
        rw [List.length_append, List.length_singleton] at hbound
        obtain rfl : i = before.length := by omega
        rw [List.getElem?_concat_length] at helement
        rw [hlength, List.getElem?_concat_length] at hslot
        cases helement
        cases hslot
        exact Or.inr ⟨hlast, by simp⟩

/-- **Declarators have the shape of their pattern.** A declarator has a shape if it requires a data
    module and its pattern has a form of the grammar; the shape is then that of the pattern. The
    fields and slots of a shape are those of the entries and elements of the pattern, in order; a
    slot stands at the position of its element, and a rest at the last one. -/
theorem require_has_shape_of_its_target (accepts : String → Bool) (n : Node) :
    (∀ shape, (Shape.ofDeclarator accepts n = shape ∧ shape.isSupported = true) ↔
      ∃ target, RequireForm accepts n target ∧ TargetForm target shape) ∧
    ((Shape.ofDeclarator accepts n).isSupported = true ↔
      ∃ target, RequireForm accepts n target ∧ ∃ shape, TargetForm target shape) ∧
    ∀ definite type elements init slots,
      n = .declarator definite (.node (.listPattern type) elements) init →
      Shape.ofDeclarator accepts n = .slotRequire slots → SlotsByPosition elements slots := by
  have hshape : ∀ shape, (Shape.ofDeclarator accepts n = shape ∧ shape.isSupported = true) ↔
      ∃ target, RequireForm accepts n target ∧ TargetForm target shape := by
    intro shape
    constructor
    · rintro ⟨heq, hsupported⟩
      obtain ⟨target, hrequire, htarget⟩ := (Shape.ofDeclarator_eq_iff hsupported).mp heq
      exact ⟨target, hrequire, (Shape.ofTarget_eq_iff hsupported).mp htarget⟩
    · rintro ⟨target, hrequire, hform⟩
      have htarget := (Shape.ofTarget_eq_iff hform.isSupported).mpr hform
      exact ⟨(Shape.ofDeclarator_eq_iff hform.isSupported).mpr ⟨target, hrequire, htarget⟩,
        hform.isSupported⟩
  refine ⟨hshape, ?_, ?_⟩
  · rw [Shape.isSupported_iff_exists hshape, exists_comm]
    simp only [exists_and_left]
  · rintro definite type elements init slots rfl hslots
    obtain ⟨target, hrequire, hform⟩ := (hshape _).mp ⟨hslots, rfl⟩
    cases hrequire
    exact hform.slotsByPosition

/-- `const [a, , ...r] = require("a.json")`, without its keyword. -/
def sparseRequire : Node :=
  .declarator false
    (.node (.listPattern none)
      [.binding ⟨⟨"a", 0, .none, false⟩, none⟩, .absent,
        .node (.restPattern none) [.binding ⟨⟨"r", 0, .none, false⟩, none⟩]])
    (.node .call [.reference ⟨"require", 0, .none, false⟩, .text "a.json"])

/-- The hole keeps its slot, so the rest starts at the third position. -/
theorem sparseRequire_has_slots :
    ∃ elements slots, sparseRequire.children.head? = some (.node (.listPattern none) elements) ∧
      Shape.ofDeclarator (· == "a.json") sparseRequire = .slotRequire slots ∧
      slots.length = 3 ∧ SlotsByPosition elements slots :=
  ⟨_, _, rfl, rfl, rfl,
    (require_has_shape_of_its_target (· == "a.json") sparseRequire).2.2 _ _ _ _ _ rfl rfl⟩

end Inlay
