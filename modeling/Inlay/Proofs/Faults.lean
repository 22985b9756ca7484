import Inlay.Proofs.Bindings
import Inlay.Proofs.DataForms

/-!
# When data cannot be taken apart

The definitions of a declaration can fail in **three ways**, and each of them is told by the shape,
by the kind of the data and by the last element of a list pattern. Where none of the three applies
there are definitions, as many as the shape binds names.

* `Shape.needsObject`, `Shape.needsPositions`: what kind of data a shape takes apart.
* `Shape.nameCount`: how many names a shape binds.
* `Source.EndsInOpenRest`: a list pattern ends in a rest that is no plain name.
* `rest_mem_of_slotsOf?`: a rest is the last of its slots, and always a rest pattern.
* `ofSlots_of_open_rest`, `ofSlots_of_named_rests`: the two outcomes of a list pattern.
* `ofShape_of_object`, `ofShape_of_not_object`: the two outcomes where keys are taken.
* `Source.Fails`: the three ways; `definitions_fail_in_three_ways`: they are the only ones.
-/

namespace Inlay

open Code Json

/-! ## What shapes take apart -/

namespace Shape

/-- The shape takes values by their keys. -/
def needsObject : Shape → Bool
  | namedImport _ | defaultAndNamed _ _ | fieldRequire _ => true
  | _ => false

/-- The shape takes values by their positions. -/
def needsPositions : Shape → Bool
  | slotRequire _ => true
  | _ => false

/-- A shape takes keys or positions, not both. -/
theorem needsPositions_of_needsObject {shape : Shape} (h : shape.needsObject = true) :
    shape.needsPositions = false := by
  cases shape with
  | slotRequire slots => cases h
  | _ => rfl

end Shape

/-- The slot binds a name. -/
def Slot.isNamed : Slot → Bool
  | hole => false
  | item _ | rest _ => true

/-- **How many names a shape binds.** -/
def Shape.nameCount : Shape → Nat
  | defaultImport _ | starImport _ | wholeRequire _ => 1
  | defaultAndStar _ _ => 2
  | namedImport picks => picks.length
  | defaultAndNamed _ picks => 1 + picks.length
  | fieldRequire fields => fields.length
  | slotRequire slots => slots.countP Slot.isNamed
  | unsupported => 0

/-- **A list pattern that ends in an open rest**: its last element is a rest pattern whose argument
    is no plain name. -/
inductive Source.EndsInOpenRest : Source → Prop where
  | intro {definite : Bool} {type restType : Option String} {elements arguments : List Node}
      {init : Node} (hlast : elements.getLast? = some (.node (.restPattern restType) arguments))
      (hopen : ∀ target, arguments ≠ [.binding target]) :
      EndsInOpenRest (.required (.declarator definite (.node (.listPattern type) elements) init))

/-! ## Slots -/

/-- **A rest is the last of its slots**: it is the last element of the pattern, as it is written,
    and a rest pattern. -/
theorem Shape.rest_mem_of_slotsOf? {elements : List Node} {slots : List Slot}
    (h : slotsOf? elements = some slots) (pattern : Node) :
    .rest pattern ∈ slots ↔
      elements.getLast? = some pattern ∧
        ∃ type arguments, pattern = .node (.restPattern type) arguments := by
  induction elements generalizing slots with
  | nil => cases h
  | cons element others ih =>
      obtain ⟨slot, rfl, hslot, rfl⟩ | ⟨slot, slots', hslot, hslots', rfl⟩ :=
        exists_of_slotsOf?_cons h
      · rw [List.mem_singleton, List.getLast?_singleton, Option.some.injEq]
        obtain ⟨target, rfl, rfl⟩ | ⟨type, arguments, rfl, rfl⟩ :=
          lastSlotOf?_eq_some_iff.mp hslot
        · constructor
          · exact nofun
          · rintro ⟨rfl, type, arguments, hpattern⟩
            cases hpattern
        · constructor
          · rintro ⟨⟩
            exact ⟨rfl, type, arguments, rfl⟩
          · rintro ⟨rfl, -⟩
            rfl
      · -- an element before the last is a hole or a name, so the rest is among the others
        have hhead : .rest pattern ≠ slot := by
          obtain ⟨-, rfl⟩ | ⟨target, -, rfl⟩ := slotOf?_eq_some_iff.mp hslot
          · exact nofun
          · exact nofun
        have hothers : others ≠ [] := by
          rintro rfl
          cases hslots'
        rw [List.mem_cons, or_iff_right hhead, ih hslots',
          List.getLast?_cons_of_ne_nil hothers]

namespace Definition

variable (v : Value) (module : String)

/-- A slot that is no open rest comes to a definition if it binds a name. -/
theorem length_ofSlot? (i : Nat) {slot : Slot}
    (h : ∀ pattern, slot = .rest pattern → restName? pattern ≠ none) :
    (ofSlot? v i slot).toList.length = [slot].countP Slot.isNamed := by
  cases slot with
  | hole => rfl
  | item target => rfl
  | rest pattern =>
      obtain ⟨target, hname⟩ := Option.ne_none_iff_exists'.mp (h pattern rfl)
      rw [ofSlot?, hname]
      rfl

/-- The definitions of slots are those of the first one and of the others, if it is no open rest. -/
theorem ofSlots_cons (i : Nat) {slot : Slot} (slots : List Slot)
    (h : ∀ pattern, slot = .rest pattern → restName? pattern ≠ none) :
    ofSlots v module i (slot :: slots)
      = (ofSlots v module (i + 1) slots).map ((ofSlot? v i slot).toList ++ ·) := by
  cases slot with
  | hole =>
      rw [ofSlots]
      cases ofSlots v module (i + 1) slots <;> rfl
  | item target =>
      rw [ofSlots]
      cases ofSlots v module (i + 1) slots <;> rfl
  | rest pattern =>
      obtain ⟨target, hname⟩ := Option.ne_none_iff_exists'.mp (h pattern rfl)
      rw [ofSlots_rest, ofSlot?, hname]
      rfl

/-- **Slots whose rests are named come to definitions**, one for each name. -/
theorem ofSlots_of_named_rests {slots : List Slot}
    (h : ∀ pattern, .rest pattern ∈ slots → restName? pattern ≠ none) (i : Nat) :
    ∃ ds, ofSlots v module i slots = .ok ds ∧ ds.length = slots.countP Slot.isNamed := by
  induction slots generalizing i with
  | nil => exact ⟨[], rfl, rfl⟩
  | cons slot slots ih =>
      have hslot : ∀ pattern, slot = .rest pattern → restName? pattern ≠ none := by
        rintro pattern rfl
        exact h pattern List.mem_cons_self
      obtain ⟨ds, hds, hlength⟩ :=
        ih (fun pattern hmem => h pattern (List.mem_cons_of_mem _ hmem)) (i + 1)
      refine ⟨(ofSlot? v i slot).toList ++ ds, ?_, ?_⟩
      · rw [ofSlots_cons v module i slots hslot, hds]
        rfl
      · rw [List.length_append, length_ofSlot? v i hslot, hlength, ← List.countP_append]
        rfl

/-- **An open rest fails**, whatever stands before it. -/
theorem ofSlots_of_open_rest {slots : List Slot} {pattern : Node} (hmem : .rest pattern ∈ slots)
    (hopen : restName? pattern = none) (i : Nat) :
    ofSlots v module i slots = .error (.unsupportedRest module) := by
  induction slots generalizing i with
  | nil => cases hmem
  | cons slot slots ih =>
      by_cases hslot : ∀ pattern, slot = .rest pattern → restName? pattern ≠ none
      · have hothers : .rest pattern ∈ slots := by
          rcases List.mem_cons.mp hmem with rfl | hothers
          · exact absurd hopen (hslot pattern rfl)
          · exact hothers
        rw [ofSlots_cons v module i slots hslot, ih hothers]
        rfl
      · -- the first slot is an open rest itself
        push Not at hslot
        obtain ⟨first, rfl, hfirst⟩ := hslot
        rw [ofSlots_rest, hfirst]

/-! ## Keys and whole data -/

variable {v} {shape : Shape}

/-- A shape that takes neither keys nor positions comes to definitions, whatever the data. -/
theorem ofShape_of_whole (hobject : shape.needsObject = false)
    (hpositions : shape.needsPositions = false) (v : Value) (module : String) :
    ∃ ds, ofShape shape v module = .ok ds ∧ ds.length = shape.nameCount := by
  cases shape with
  | namedImport picks => cases hobject
  | defaultAndNamed target picks => cases hobject
  | fieldRequire fields => cases hobject
  | slotRequire slots => cases hpositions
  | _ => exact ⟨_, rfl, rfl⟩

/-- Keys can be taken out of an object, also those that are not there. -/
theorem ofShape_of_object (h : shape.needsObject = true) (entries : Entries) (module : String) :
    ∃ ds, ofShape shape (.object entries) module = .ok ds ∧ ds.length = shape.nameCount := by
  cases shape with
  | namedImport picks => exact ⟨_, rfl, List.length_map _⟩
  | defaultAndNamed target picks =>
      refine ⟨_, rfl, ?_⟩
      rw [List.length_cons, ofReads, List.length_map, Shape.nameCount, Nat.add_comm]
  | fieldRequire fields => exact ⟨_, rfl, List.length_map _⟩
  | _ => cases h

/-- No key can be taken out of anything else, and that is a failure even where none is asked for. -/
theorem ofShape_of_not_object (h : shape.needsObject = true) (hv : ∀ entries, v ≠ .object entries)
    (module : String) : ofShape shape v module = .error (.notObject module) := by
  have hentries : v.entries? = none := by
    cases v with
    | object entries => exact absurd rfl (hv entries)
    | _ => rfl
  cases shape with
  | namedImport picks => rw [ofShape, hentries]
  | defaultAndNamed target picks => rw [ofShape, hentries]
  | fieldRequire fields => rw [ofShape, hentries]
  | _ => cases h

end Definition

/-! ## Declarations -/

namespace Source

variable {accepts : String → Bool} {source : Source}

/-- A shape that takes positions is that of a list pattern with these slots. -/
theorem exists_of_shape_eq_slotRequire {slots : List Slot}
    (h : source.shape accepts = .slotRequire slots) :
    ∃ definite type elements init,
      source = .required (.declarator definite (.node (.listPattern type) elements) init) ∧
        Shape.slotsOf? elements = some slots := by
  have hsupported : (source.shape accepts).isSupported = true := by
    rw [h]
    rfl
  cases source with
  | imported decl =>
      -- the shape of an import takes no positions
      exfalso
      rw [shape, Shape.ofImport_of_supported hsupported] at h
      revert h
      fun_cases Shape.ofSpecifiers decl.specifiers <;> (intro h; cases h)
  | required declarator =>
      obtain ⟨definite, target, init, rfl, hshape⟩ := Shape.ofDeclarator_of_supported hsupported
      rw [shape, hshape] at h
      revert h
      fun_cases Shape.ofTarget target with
      | case4 type elements slots' hslots =>
          rintro ⟨⟩
          exact ⟨definite, type, elements, init, rfl, hslots⟩
      | _ =>
          intro h
          cases h

/-- The pattern ends in an open rest if one of its slots is one. -/
theorem endsInOpenRest_iff {slots : List Slot} (h : source.shape accepts = .slotRequire slots) :
    source.EndsInOpenRest ↔
      ∃ pattern, .rest pattern ∈ slots ∧ Definition.restName? pattern = none := by
  obtain ⟨definite, type, elements, init, rfl, hslots⟩ := exists_of_shape_eq_slotRequire h
  constructor
  · rintro ⟨hlast, hopen⟩
    refine ⟨_, (Shape.rest_mem_of_slotsOf? hslots _).mpr ⟨hlast, _, _, rfl⟩, ?_⟩
    refine Option.eq_none_iff_forall_ne_some.mpr ?_
    intro target hname
    obtain ⟨type', heq⟩ := Definition.restName?_eq_some_iff.mp hname
    cases heq
    exact hopen target rfl
  · rintro ⟨pattern, hmem, hopen⟩
    obtain ⟨hlast, restType, arguments, rfl⟩ :=
      (Shape.rest_mem_of_slotsOf? hslots pattern).mp hmem
    refine .intro hlast ?_
    rintro target rfl
    cases hopen

/-- **Why a declaration cannot take its data apart**, when the module is named `module`. -/
inductive Fails (accepts : String → Bool) (source : Source) (v : Value) (module : String) :
    Failure → Prop where
  /-- Keys are asked for, and the data is no object. -/
  | notObject (hshape : (source.shape accepts).needsObject = true)
      (hdata : ∀ entries, v ≠ .object entries) : Fails accepts source v module (.notObject module)
  /-- Positions are asked for, and the data is neither a list nor a string. -/
  | notSequence (hshape : (source.shape accepts).needsPositions = true)
      (hlist : ∀ items, v ≠ .array items) (hstring : ∀ s, v ≠ .string s) :
      Fails accepts source v module (.notSequence module)
  /-- Positions are asked for and there, and the last of them go to no plain name. -/
  | unsupportedRest (hshape : (source.shape accepts).needsPositions = true)
      (hdata : (∃ items, v = .array items) ∨ ∃ s, v = .string s)
      (hrest : source.EndsInOpenRest) : Fails accepts source v module (.unsupportedRest module)

/-- **It is decided whether a declaration fails, and how**: the definitions fail in that way, or
    there is one for each name. -/
def Settled (accepts : String → Bool) (source : Source) (v : Value) (module : String) : Prop :=
  (∃ failure, source.Fails accepts v module failure ∧
    Definition.ofShape (source.shape accepts) v module = .error failure) ∨
  ((∀ failure, ¬ source.Fails accepts v module failure) ∧
    ∃ ds, Definition.ofShape (source.shape accepts) v module = .ok ds ∧
      ds.length = (source.shape accepts).nameCount)

/-- There is at most one way to fail: the shape takes keys or positions, not both, and a list or a
    string has positions. -/
theorem Fails.unique {v : Value} {module : String} {failure other : Failure}
    (h : source.Fails accepts v module failure) (h' : source.Fails accepts v module other) :
    failure = other := by
  have hnotBoth : (source.shape accepts).needsObject = true →
      (source.shape accepts).needsPositions = true → False := by
    intro hobject hpositions
    rw [Shape.needsPositions_of_needsObject hobject] at hpositions
    cases hpositions
  cases h with
  | notObject hshape _ =>
      cases h' with
      | notObject _ _ => rfl
      | notSequence hshape' _ _ => exact (hnotBoth hshape hshape').elim
      | unsupportedRest hshape' _ _ => exact (hnotBoth hshape hshape').elim
  | notSequence hshape hlist hstring =>
      cases h' with
      | notObject hshape' _ => exact (hnotBoth hshape' hshape).elim
      | notSequence _ _ _ => rfl
      | unsupportedRest _ hdata _ =>
          rcases hdata with ⟨items, rfl⟩ | ⟨s, rfl⟩
          · exact (hlist items rfl).elim
          · exact (hstring s rfl).elim
  | unsupportedRest hshape hdata _ =>
      cases h' with
      | notObject hshape' _ => exact (hnotBoth hshape' hshape).elim
      | notSequence _ hlist hstring =>
          rcases hdata with ⟨items, rfl⟩ | ⟨s, rfl⟩
          · exact (hlist items rfl).elim
          · exact (hstring s rfl).elim
      | unsupportedRest _ _ _ => rfl

/-- A shape that takes neither keys nor positions never fails. -/
theorem settled_of_whole {v : Value} {module : String}
    (hobject : (source.shape accepts).needsObject = false)
    (hpositions : (source.shape accepts).needsPositions = false) :
    source.Settled accepts v module := by
  refine Or.inr ⟨?_, ?_⟩
  · rintro failure (⟨hshape, -⟩ | ⟨hshape, -, -⟩ | ⟨hshape, -, -⟩)
    · rw [hobject] at hshape
      cases hshape
    · rw [hpositions] at hshape
      cases hshape
    · rw [hpositions] at hshape
      cases hshape
  · exact Definition.ofShape_of_whole hobject hpositions v module

/-- **A shape that takes keys** fails off an object, and only there. -/
theorem settled_of_needsObject {v : Value} {module : String}
    (hobject : (source.shape accepts).needsObject = true) :
    source.Settled accepts v module := by
  have hpositions := Shape.needsPositions_of_needsObject hobject
  by_cases hdata : ∃ entries, v = .object entries
  · obtain ⟨entries, rfl⟩ := hdata
    refine Or.inr ⟨?_, Definition.ofShape_of_object hobject entries module⟩
    rintro failure (⟨-, hdata⟩ | ⟨hshape, -, -⟩ | ⟨hshape, -, -⟩)
    · exact hdata entries rfl
    · rw [hpositions] at hshape
      cases hshape
    · rw [hpositions] at hshape
      cases hshape
  · have hdata : ∀ entries, v ≠ .object entries := by
      intro entries heq
      exact hdata ⟨entries, heq⟩
    exact Or.inl ⟨_, .notObject hobject hdata,
      Definition.ofShape_of_not_object hobject hdata module⟩

/-- A list or a string has positions, and nothing else has. -/
theorem hasPositions_iff {v : Value} :
    hasPositions v = true ↔ (∃ items, v = .array items) ∨ ∃ s, v = .string s := by
  cases v <;> simp [hasPositions]

/-- **A shape that takes positions** fails off a list or a string, and at an open rest. -/
theorem settled_of_needsPositions {v : Value} {module : String} {slots : List Slot}
    (h : source.shape accepts = .slotRequire slots) : source.Settled accepts v module := by
  have hshape : (source.shape accepts).needsPositions = true := by
    rw [h]
    rfl
  by_cases hpositions : hasPositions v = true
  · have hdata := hasPositions_iff.mp hpositions
    by_cases hrest : source.EndsInOpenRest
    · obtain ⟨pattern, hmem, hopen⟩ := (endsInOpenRest_iff h).mp hrest
      refine Or.inl ⟨_, .unsupportedRest hshape hdata hrest, ?_⟩
      rw [h, Definition.ofShape, if_pos hpositions]
      exact Definition.ofSlots_of_open_rest v module hmem hopen 0
    · refine Or.inr ⟨?_, ?_⟩
      · rintro failure (⟨hkeys, -⟩ | ⟨-, hlist, hstring⟩ | ⟨-, -, hopen⟩)
        · rw [h] at hkeys
          cases hkeys
        · rcases hdata with ⟨items, rfl⟩ | ⟨s, rfl⟩
          · exact hlist items rfl
          · exact hstring s rfl
        · exact hrest hopen
      · rw [h, Definition.ofShape, if_pos hpositions]
        refine Definition.ofSlots_of_named_rests v module ?_ 0
        intro pattern hmem hopen
        exact hrest ((endsInOpenRest_iff h).mpr ⟨pattern, hmem, hopen⟩)
  · have hdata : ¬ ((∃ items, v = .array items) ∨ ∃ s, v = .string s) :=
      fun hdata => hpositions (hasPositions_iff.mpr hdata)
    refine Or.inl ⟨_, .notSequence hshape ?_ ?_, ?_⟩
    · exact fun items heq => hdata (Or.inl ⟨items, heq⟩)
    · exact fun s heq => hdata (Or.inr ⟨s, heq⟩)
    · rw [h, Definition.ofShape, if_neg hpositions]

/-- **Every declaration is decided.** -/
theorem settled (accepts : String → Bool) (source : Source) (v : Value) (module : String) :
    source.Settled accepts v module := by
  by_cases hobject : (source.shape accepts).needsObject = true
  · exact settled_of_needsObject hobject
  · rw [Bool.not_eq_true] at hobject
    cases hshape : source.shape accepts with
    | slotRequire slots => exact settled_of_needsPositions hshape
    | _ =>
        refine settled_of_whole hobject ?_
        rw [hshape]
        rfl

end Source

/-- **Definitions fail in exactly three ways.** The definitions of a declaration fail because keys
    are asked for and the data is no object, because positions are asked for and the data is neither
    a list nor a string, or because the rest of a list or of a string goes to no plain name; every
    failure names the module. Where nothing of this is so, there are definitions, one for each name
    of the shape. -/
theorem definitions_fail_in_three_ways (accepts : String → Bool) (source : Source) (v : Value)
    (module : String) :
    (∀ failure, Definition.ofShape (source.shape accepts) v module = .error failure ↔
      source.Fails accepts v module failure) ∧
    ((∃ ds, Definition.ofShape (source.shape accepts) v module = .ok ds ∧
        ds.length = (source.shape accepts).nameCount) ↔
      ∀ failure, ¬ source.Fails accepts v module failure) := by
  obtain ⟨failure, hfails, herror⟩ | ⟨hnone, ds, hok, hlength⟩ :=
    source.settled accepts v module
  · rw [herror]
    refine ⟨fun other => ?_, ?_⟩
    · constructor
      · rintro ⟨⟩
        exact hfails
      · intro hother
        rw [hfails.unique hother]
    · constructor
      · rintro ⟨ds, hds, -⟩
        cases hds
      · intro hnone
        exact absurd hfails (hnone failure)
  · rw [hok]
    refine ⟨fun failure => ?_, ?_⟩
    · constructor
      · exact nofun
      · intro hfails
        exact absurd hfails (hnone failure)
    · exact iff_of_true ⟨ds, rfl, hlength⟩ hnone

end Inlay
