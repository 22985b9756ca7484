import Inlay.Proofs.Bindings
import Inlay.Proofs.DataForms
import Inlay.Proofs.Outcome
import Mathlib.Data.List.TakeWhile

/-!
# A run keeps the names that are bound

Whatever a run replaces, and wherever it stops, the tree that it leaves **binds the same names in
the same order**: every name is copied into the definition that stands for it, with its context, its
span, its mark and its annotation. One thing goes with an import that is replaced: its attributes.
As code that attributes can really have they bind nothing, but as trees they could.

* `Node.bindings`: the names that a tree binds, in the order of the tree.
* `map_target_ofTarget`, `map_target_ofSpecifiers`: definitions bind the names of the pattern or of
  the specifiers that they stand for.
* `Context.strippedAt`: a tree whose imports lose their attributes where they are replaced.
* `bindings_inlineAt`: replacing some tasks of a tree, and no others, keeps the names.
* `run_tree`: the tree of a run, whichever way it ends.
* `run_keeps_bindings`: the names of a whole run.
-/

namespace Inlay

open Code Json

/-! ## The names of a tree -/

namespace Code

/-- **The names that a form binds by itself**: a pattern that is a name, functions, classes and
    nested modules by their names, imports by their specifiers. Assignments and other uses of a name
    bind nothing. Of a nested module nothing but its name is known. -/
def Form.names : Form → List Binding
  | .binding target => [target]
  | .fieldPattern target => [target]
  | .function (some ident) => [ident.binding]
  | .functionDeclaration ident => [ident.binding]
  | .classDeclaration ident => [ident.binding]
  | .nestedModule name => [Ident.binding ⟨name, 0, .none, false⟩]
  | .importItem decl => decl.specifiers.map fun s => s.target.binding
  | _ => []

namespace Node

mutual

/-- **The names that a tree binds**, in the order of the tree: those of a node come before those of
    its children. -/
def bindings : Node → List Binding
  | node form children => form.names ++ bindingsAll children

/-- The names that trees bind, one after the other. -/
def bindingsAll : List Node → List Binding
  | [] => []
  | n :: rest => bindings n ++ bindingsAll rest

end

theorem bindings_node (form : Form) (children : List Node) :
    bindings (node form children) = form.names ++ bindingsAll children := rfl

theorem bindingsAll_cons (n : Node) (rest : List Node) :
    bindingsAll (n :: rest) = n.bindings ++ bindingsAll rest := rfl

theorem bindingsAll_append (first second : List Node) :
    bindingsAll (first ++ second) = bindingsAll first ++ bindingsAll second := by
  induction first with
  | nil => rfl
  | cons n rest ih =>
      rw [List.cons_append, bindingsAll_cons, ih, bindingsAll_cons, List.append_assoc]

mutual

/-- Data binds nothing. -/
theorem bindings_of_isData : ∀ n : Node, n.isData = true → n.bindings = []
  | node form children, h => by
      rw [isData, Bool.and_eq_true] at h
      have hnames : form.names = [] := by
        cases form <;> first | rfl | exact nomatch h.1
      rw [bindings, hnames, bindingsAll_of_isDataAll children h.2, List.append_nil]

theorem bindingsAll_of_isDataAll : ∀ ns : List Node, isDataAll ns = true → bindingsAll ns = []
  | [], _ => rfl
  | n :: rest, h => by
      rw [isDataAll, Bool.and_eq_true] at h
      rw [bindingsAll, bindings_of_isData n h.1, bindingsAll_of_isDataAll rest h.2]
      rfl

end

/-- An import without its attributes; every other node as it is. -/
def withoutAttributes : Node → Node
  | node (.importItem decl) _ => node (.importItem decl) []
  | n => n

/-- **The attributes of imports bind nothing**, anywhere in a tree. -/
def AttributesBindNothing (n : Node) : Prop :=
  ∀ decl attributes, Within (node (.importItem decl) attributes) n → bindingsAll attributes = []

theorem AttributesBindNothing.of_child {form : Form} {children : List Node}
    (h : (node form children).AttributesBindNothing) {c : Node} (hc : c ∈ children) :
    c.AttributesBindNothing := by
  intro decl attributes hwithin
  exact h decl attributes (.child hc hwithin)

/-- Where attributes bind nothing, leaving them out changes no names. -/
theorem bindings_withoutAttributes {n : Node} (h : n.AttributesBindNothing) :
    n.withoutAttributes.bindings = n.bindings := by
  obtain ⟨form, children⟩ := n
  cases form with
  | importItem decl =>
      have hnone : bindingsAll children = [] := h decl children .self
      rw [withoutAttributes, bindings_node, bindings_node, hnone]
      rfl
  | _ => rfl

end Node

end Code

/-! ## The names of definitions -/

/-- Declarators of definitions bind their targets. -/
theorem bindingsAll_declarators {ds : List Definition} (h : ∀ d ∈ ds, d.value.isData = true) :
    Node.bindingsAll (ds.map Definition.declarator) = ds.map Definition.target := by
  induction ds with
  | nil => rfl
  | cons d rest ih =>
      obtain ⟨hd, hrest⟩ := List.forall_mem_cons.mp h
      have hdeclarator : d.declarator.bindings = [d.target] := by
        show [d.target] ++ (d.value.bindings ++ []) = _
        rw [Node.bindings_of_isData _ hd]
        rfl
      rw [List.map_cons, Node.bindingsAll_cons, hdeclarator, ih hrest]
      rfl

/-- Declarations of constants bind the targets of their definitions. -/
theorem bindingsAll_constants (ds : List Definition) :
    Node.bindingsAll (ds.map Definition.constant)
      = Node.bindingsAll (ds.map Definition.declarator) := by
  induction ds with
  | nil => rfl
  | cons d rest ih =>
      have hconstant : d.constant.bindings = d.declarator.bindings := List.append_nil _
      rw [List.map_cons, List.map_cons, Node.bindingsAll_cons, Node.bindingsAll_cons, hconstant, ih]

namespace Shape

/-- Fields have the names of the entries that they are made of. -/
theorem map_snd_of_fieldOf? {entries : List Node} {fields : List (String × Binding)}
    (h : entries.mapM fieldOf? = some fields) :
    fields.map Prod.snd = Node.bindingsAll entries := by
  induction entries generalizing fields with
  | nil =>
      cases h
      rfl
  | cons entry rest ih =>
      obtain ⟨field, fs, hfield, hfs, rfl⟩ := mapM_cons_eq_some_iff.mp h
      have hentry : entry.bindings = [field.2] := by
        obtain ⟨rfl, -⟩ | rfl := fieldOf?_eq_some_iff.mp hfield <;> rfl
      rw [List.map_cons, Node.bindingsAll_cons, hentry, ih hfs]
      rfl

/-- Picks have the names of the specifiers that they are made of. -/
theorem map_binding_of_picksOf? {specifiers : List Specifier} {picks : List Pick}
    (h : picksOf? specifiers = some picks) :
    picks.map (fun p => p.target.binding) = specifiers.map fun s => s.target.binding := by
  induction specifiers generalizing picks with
  | nil =>
      cases h
      rfl
  | cons s rest ih =>
      obtain ⟨p, ps, hp, hps, rfl⟩ := mapM_cons_eq_some_iff.mp h
      rw [List.map_cons, List.map_cons, ih hps, (boundTo?_of_pickOf? hp).1]

end Shape

namespace Definition

/-- A slot binds the name of its element: a hole has none, and a rest has the name in it. -/
theorem map_target_ofSlot? {element : Node} {slot : Slot} (v : Value) (i : Nat)
    (h : Shape.slotOf? element = some slot ∨ Shape.lastSlotOf? element = some slot)
    (hrest : ∀ pattern, slot = .rest pattern → (restName? pattern).isSome = true) :
    (ofSlot? v i slot).toList.map target = element.bindings := by
  rcases h with h | h
  · obtain ⟨rfl, rfl⟩ | ⟨target, rfl, rfl⟩ := Shape.slotOf?_eq_some_iff.mp h <;> rfl
  · -- the last element may be a rest, and a rest that is no plain name has failed before
    obtain ⟨target, rfl, rfl⟩ | ⟨type, children, rfl, rfl⟩ :=
      Shape.lastSlotOf?_eq_some_iff.mp h
    · rfl
    · obtain ⟨target, hname⟩ := Option.isSome_iff_exists.mp (hrest _ rfl)
      obtain ⟨type', hpattern⟩ := restName?_eq_some_iff.mp hname
      cases hpattern
      rfl

/-- The definitions of slots bind the names of the elements. -/
theorem map_target_ofSlots {v : Value} {module : String} {elements : List Node}
    {slots : List Slot} (h : Shape.slotsOf? elements = some slots) {i : Nat}
    {ds : List Definition} (hds : ofSlots v module i slots = .ok ds) :
    ds.map target = Node.bindingsAll elements := by
  induction elements generalizing slots i ds with
  | nil => cases h
  | cons element rest ih =>
      obtain ⟨slot, rfl, hslot, rfl⟩ | ⟨slot, slots', hslot, hslots', rfl⟩ :=
        Shape.exists_of_slotsOf?_cons h
      · obtain ⟨ds', hds', rfl, hrest⟩ := exists_of_ofSlots_cons hds
        cases hds'
        rw [List.map_append, map_target_ofSlot? v i (Or.inr hslot) hrest]
        rfl
      · obtain ⟨ds', hds', rfl, hrest⟩ := exists_of_ofSlots_cons hds
        rw [List.map_append, map_target_ofSlot? v i (Or.inl hslot) hrest, ih hslots' hds',
          Node.bindingsAll_cons element]

/-- **The definitions of a `require` bind the names of its pattern.** -/
theorem map_target_ofTarget {pattern : Node} {v : Value} {module : String}
    {ds : List Definition} (hsupported : (Shape.ofTarget pattern).isSupported = true)
    (h : ofShape (Shape.ofTarget pattern) v module = .ok ds) :
    ds.map target = pattern.bindings := by
  revert hsupported h
  fun_cases Shape.ofTarget pattern with
  | case1 target =>
      rintro - ⟨⟩
      rfl
  | case2 type entries field fields hfields =>
      intro _ h
      obtain ⟨members, rfl⟩ := eq_of_entries? h
      rw [ofFields, List.map_map]
      exact Shape.map_snd_of_fieldOf? hfields
  | case3 =>
      intro hsupported
      cases hsupported
  | case4 type elements slots hslots =>
      intro _ h
      rw [ofShape] at h
      by_cases hpositions : hasPositions v = true
      · rw [if_pos hpositions] at h
        exact map_target_ofSlots hslots h
      · rw [if_neg hpositions] at h
        cases h
  | case5 =>
      intro hsupported
      cases hsupported
  | case6 =>
      intro hsupported
      cases hsupported

/-- **The definitions of an import bind the names of its specifiers.** -/
theorem map_target_ofSpecifiers {specifiers : List Specifier} {v : Value} {module : String}
    {ds : List Definition} (hsupported : (Shape.ofSpecifiers specifiers).isSupported = true)
    (h : ofShape (Shape.ofSpecifiers specifiers) v module = .ok ds) :
    ds.map target = specifiers.map fun s => s.target.binding := by
  revert hsupported h
  fun_cases Shape.ofSpecifiers specifiers with
  | case1 target =>
      rintro - ⟨⟩
      rfl
  | case2 target =>
      rintro - ⟨⟩
      rfl
  | case3 target star =>
      rintro - ⟨⟩
      rfl
  | case4 target rest _ _ picks hpicks =>
      intro _ h
      obtain ⟨entries, rfl⟩ := eq_of_entries? (f := fun _ =>
        ⟨target.binding, Literal.embed v⟩ :: ofReads target picks) h
      rw [List.map_cons, List.map_cons, ← Shape.map_binding_of_picksOf? hpicks, ofReads,
        List.map_map]
      rfl
  | case5 =>
      intro hsupported
      cases hsupported
  | case6 _ _ _ _ _ picks hpicks =>
      intro _ h
      obtain ⟨entries, rfl⟩ := eq_of_entries? h
      rw [← Shape.map_binding_of_picksOf? hpicks, ofPicks, List.map_map]
      rfl
  | case7 =>
      intro hsupported
      cases hsupported

end Definition

namespace Context

variable (ctx : Context)

/-! ## The names of a tree with replacements -/

/-- **What is written for a job binds the names of the child that had the job**, except for what the
    attributes of an import bind. -/
theorem bindingsAll_code {form : Form} {child : Node} {job : Job} {ds : List Definition}
    (hjob : ctx.job? form child = some job) (hds : ctx.definitions job = .ok ds) :
    Node.bindingsAll (job.code ds) = child.withoutAttributes.bindings := by
  obtain ⟨value, -, hshape⟩ := ctx.definitions_eq_ok_iff.mp hds
  have hdata := Definition.isData_ofShape hshape
  cases form with
  | declaration head =>
      obtain ⟨⟨module, shape⟩, hrequired, rfl⟩ := Option.map_eq_some_iff.mp hjob
      obtain ⟨definite, target, init, rfl, hsource, -, hsupported, rfl⟩ :=
        ctx.required?_eq_some_iff.mp hrequired
      -- the call of `require` binds nothing, so all names are those of the pattern
      have hinit : init.bindings = [] := by
        obtain ⟨callee, -, rfl⟩ := requireSource?_eq_some_iff.mp hsource
        rfl
      calc Node.bindingsAll (ds.map Definition.declarator)
          = ds.map Definition.target := bindingsAll_declarators hdata
        _ = target.bindings := Definition.map_target_ofTarget hsupported hshape
        _ = target.bindings ++ (init.bindings ++ []) := by
            rw [hinit, List.append_nil, List.append_nil]
  | moduleBody =>
      obtain ⟨childForm, attributes⟩ := child
      cases childForm with
      | importItem decl =>
          obtain ⟨-, hsupported, rfl⟩ := ctx.importJob?_eq_some_iff.mp hjob
          have hspecifiers := Shape.ofImport_of_supported hsupported
          rw [hspecifiers] at hsupported hshape
          calc Node.bindingsAll (ds.map Definition.constant)
              = Node.bindingsAll (ds.map Definition.declarator) := bindingsAll_constants ds
            _ = ds.map Definition.target := bindingsAll_declarators hdata
            _ = decl.specifiers.map (fun s => s.target.binding) :=
                Definition.map_target_ofSpecifiers hsupported hshape
            _ = decl.specifiers.map (fun s => s.target.binding) ++ [] :=
                (List.append_nil _).symm
      | _ => exact nomatch hjob
  | _ => exact nomatch hjob

/-- What stands in place of a child is written for its job. -/
theorem exists_job_of_replacement? {form : Form} {child : Node} {code : List Node}
    (h : ctx.replacement? form child = some code) :
    ∃ job ds, ctx.job? form child = some job ∧ ctx.definitions job = .ok ds ∧
      code = job.code ds := by
  rw [replacement?] at h
  cases hjob : ctx.job? form child with
  | none =>
      rw [hjob] at h
      cases h
  | some job =>
      rw [hjob] at h
      dsimp only at h
      cases hds : ctx.definitions job with
      | error failure =>
          rw [hds] at h
          cases h
      | ok ds =>
          rw [hds] at h
          cases h
          exact ⟨job, ds, rfl, hds, rfl⟩

mutual

/-- **The tree whose imports lose their attributes** where they are replaced, if the tasks at the
    places in `done` are, and which is otherwise as it was. -/
def strippedAt (done : Place → Bool) : Node → Node
  | .node form children => .node form (strippedAllAt done form 0 children)

def strippedAllAt (done : Place → Bool) (form : Form) (i : Nat) : List Node → List Node
  | [] => []
  | child :: rest =>
    (if (ctx.replacementAt? done form i child).isSome then child.withoutAttributes
      else strippedAt (fun p => done (i :: p)) child)
      :: strippedAllAt done form (i + 1) rest

end

mutual

/-- **Replacing some tasks of a tree keeps the names that it binds.** -/
theorem bindings_inlineAt :
    ∀ (n : Node) (done : Place → Bool),
      (ctx.inlineAt done n).bindings = (ctx.strippedAt done n).bindings
  | .node form children, done => by
      rw [inlineAt_node, strippedAt, Node.bindings_node, Node.bindings_node,
        bindingsAll_inlineAllAt form children 0 done]

theorem bindingsAll_inlineAllAt (form : Form) :
    ∀ (children : List Node) (i : Nat) (done : Place → Bool),
      Node.bindingsAll (ctx.inlineAllAt done form i children)
        = Node.bindingsAll (ctx.strippedAllAt done form i children)
  | [], _, _ => rfl
  | child :: rest, i, done => by
      rw [inlineAllAt_cons, strippedAllAt, Node.bindingsAll_append, Node.bindingsAll_cons,
        bindingsAll_inlineAllAt form rest (i + 1) done]
      cases hcode : ctx.replacementAt? done form i child with
      | none =>
          rw [Option.getD_none, Node.bindingsAll_cons,
            bindings_inlineAt child (fun p => done (i :: p))]
          exact congrArg (· ++ _) (List.append_nil _)
      | some code =>
          -- a child that is replaced gives way as it was, with nothing inside it replaced
          obtain ⟨job, ds, hjob, hds, rfl⟩ :=
            ctx.exists_job_of_replacement? (ctx.replacementAt?_eq_some_iff.mp hcode).2
          rw [Option.getD_some, ctx.bindingsAll_code hjob hds]
          rfl

end

mutual

/-- Where attributes bind nothing, no names are lost with them. -/
theorem bindings_strippedAt :
    ∀ (n : Node) (done : Place → Bool), n.AttributesBindNothing →
      (ctx.strippedAt done n).bindings = n.bindings
  | .node form children, done, h => by
      rw [strippedAt, Node.bindings_node, Node.bindings_node,
        bindingsAll_strippedAllAt form children 0 done (fun _ hc => h.of_child hc)]

theorem bindingsAll_strippedAllAt (form : Form) :
    ∀ (children : List Node) (i : Nat) (done : Place → Bool),
      (∀ child ∈ children, child.AttributesBindNothing) →
      Node.bindingsAll (ctx.strippedAllAt done form i children) = Node.bindingsAll children
  | [], _, _, _ => rfl
  | child :: rest, i, done, h => by
      obtain ⟨hchild, hrest⟩ := List.forall_mem_cons.mp h
      rw [strippedAllAt, Node.bindingsAll_cons, Node.bindingsAll_cons,
        bindingsAll_strippedAllAt form rest (i + 1) done hrest]
      split
      · rw [Node.bindings_withoutAttributes hchild]
      · rw [bindings_strippedAt child _ hchild]

end

/-! ## The names of a run -/

/-- **The stops that a run replaces**: the declarations and eligible imports before the first one
    that fails. -/
def replacedStops (program : Node) : List Stop :=
  (ctx.visitOrder program).takeWhile fun s => (ctx.verdict s.task).isNone

/-- A run whose stops all pass replaces all that are eligible. -/
theorem replacedStops_of_allPass {program : Node} (h : ctx.AllPass program.stops) :
    ctx.replacedStops program = ctx.visitOrder program := by
  refine List.takeWhile_eq_self_iff.mpr (fun s hs => ?_)
  rw [h s (List.mem_of_mem_filter hs)]
  rfl

/-- A run with a failing stop replaces the eligible ones before the first one. -/
theorem replacedStops_of_split {program : Node} {before after : List Stop} {s : Stop}
    {failure : Failure} (hsplit : program.stops = before ++ s :: after)
    (hbefore : ctx.AllPass before) (hs : ctx.verdict s.task = some failure) :
    ctx.replacedStops program = before.filter fun t => ctx.isEligible t.task := by
  rw [replacedStops, (ctx.breaksAt_of_split hsplit hbefore hs).order,
    List.takeWhile_append_of_pos, List.takeWhile_cons, hs]
  · exact List.append_nil _
  · intro t ht
    rw [hbefore t (List.mem_of_mem_filter ht)]
    rfl

/-- **The tree of a run, whichever way it ends.** -/
theorem run_tree (program : Node) :
    (ctx.run program).1 = ctx.inlineAt (placesOf (ctx.replacedStops program)) program := by
  by_cases hpass : ctx.AllPass program.stops
  · refine congrArg Prod.fst (ctx.run_eq (reaches_of_allPass hpass ?_))
    intro s hs heligible
    rw [ctx.replacedStops_of_allPass hpass]
    exact placesOf_of_mem (List.mem_filter.mpr ⟨hs, heligible⟩)
  · obtain ⟨before, s, after, failure, hsplit, hbefore, hs⟩ :=
      ctx.exists_split_of_not_allPass hpass
    rw [ctx.run_of_split hsplit hbefore hs, ctx.replacedStops_of_split hsplit hbefore hs]

/-- **A run keeps the names that are bound**, whether it succeeds or fails: the tree that it leaves
    binds the names of the given tree, each with its context, span, mark and annotation, in the same
    order and as often, except for what stands in the attributes of the imports that it replaced. So
    where the attributes of imports bind nothing, no name is lost at all. -/
theorem run_keeps_bindings (program : Node) :
    (ctx.run program).1.bindings
      = (ctx.strippedAt (placesOf (ctx.replacedStops program)) program).bindings ∧
    (program.AttributesBindNothing → (ctx.run program).1.bindings = program.bindings) := by
  have hrun : (ctx.run program).1.bindings
      = (ctx.strippedAt (placesOf (ctx.replacedStops program)) program).bindings := by
    rw [ctx.run_tree, ctx.bindings_inlineAt]
  refine ⟨hrun, ?_⟩
  intro hnothing
  rw [hrun, ctx.bindings_strippedAt program _ hnothing]

end Context

/-! ## Names in attributes -/

/-- A module whose import has a function among its attributes. -/
def functionInAttributes : Node :=
  .node .moduleBody
    [.node (.importItem
        ⟨[.default ⟨"x", 0, .none, false⟩], "a.json", false, .evaluation, .none⟩)
      [.node .object
        [.node .property
          [.node (.nameKey "k") [],
            .node (.function (some ⟨"f", 0, .none, false⟩))
              [.node .parameters [.binding ⟨⟨"p", 0, .none, false⟩, none⟩],
                .node .block []]]]]]

/-- Every file is there and holds `null`. -/
def nullFiles : Context := ⟨⟨"", .empty⟩, none, fun _ => .ok "null"⟩

/-- **The names in the attributes of a replaced import are lost**: the module binds `x`, `f` and
    `p`, and what is left of it binds `x`. -/
theorem names_in_attributes_are_lost :
    (nullFiles.run functionInAttributes).2.outcome = .ok () ∧
    functionInAttributes.bindings.map (fun b => b.ident.name) = ["x", "f", "p"] ∧
    (nullFiles.run functionInAttributes).1.bindings.map (fun b => b.ident.name) = ["x"] ∧
    (nullFiles.run functionInAttributes).1.bindings ≠ functionInAttributes.bindings := by
  refine ⟨rfl, rfl, rfl, ?_⟩
  intro h
  exact nomatch congrArg List.length h

end Inlay
