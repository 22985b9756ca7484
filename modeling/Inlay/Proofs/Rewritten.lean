import Inlay.Proofs.BoundNames

/-!
# What is written anew in a tree

Between a tree and what a run makes of it there are **two kinds of differences**: declarators of a
declaration give way to definitions, and imports among the items of a module give way to constants.
`Rewritten n n' reports` says that `n'` is `n` with such differences and no others, and lists them
in the order of the walk. It knows nothing of matchers, files or journals.

* `Node.IsDefinition`, `Node.IsConstant`: what can stand in place of a declarator or of an import.
* `Replaces`: one difference, with the report on it; `Rewritten`: whole trees.
* `rewritten_inlineAt`: replacing some tasks of a tree, and no others, rewrites it.
* `Rewritten.declarationsFilled`: no declaration is left without a declarator.
* `run_keeps_declarations_well_formed`: whole runs.
-/

namespace Inlay

open Code Json

/-! ## Differences between trees -/

namespace Code.Node

/-- **A definition as code**: a declarator with a plain name and an initialiser that is there and
    written with data forms only. -/
def IsDefinition (n : Node) : Prop :=
  ∃ target value, n = .declarator false (.binding target) value ∧ value ≠ .absent ∧
    value.isData = true

/-- **A constant as code**: a `const` declaration of one definition. -/
def IsConstant (n : Node) : Prop :=
  ∃ head d, n = .node (.declaration head) [d] ∧ head.kind = .constant ∧ d.IsDefinition

end Code.Node

/-- **A report on a declaration that was written anew**: where its data came from, its shape, and
    the number of its definitions. -/
structure Report where
  origin : Origin
  module : String
  kind : String
  bindings : Nat
deriving DecidableEq, Repr

/-- **What stands in place of a child of a node**, and the report on it. A declarator with a plain
    pattern and a `require` gives way to at least one definition, an import to any number of
    constants, and what stands in their place binds their names. -/
inductive Replaces : Form → Node → List Node → Report → Prop where
  | required {head : DeclarationHead} {definite : Bool} {target init : Node} {module : String}
      {code : List Node} :
      target.isPlain = true → requireSource? init = some module →
      code ≠ [] → (∀ n ∈ code, n.IsDefinition) →
      Node.bindingsAll code = Node.bindings (.declarator definite target init) →
      Replaces (.declaration head) (.declarator definite target init) code
        ⟨.required, module, (Shape.ofTarget target).kind, code.length⟩
  | imported {decl : Import} {attributes code : List Node} :
      (∀ n ∈ code, n.IsConstant) →
      Node.bindingsAll code = (decl.specifiers.map fun s => s.target.binding) →
      Replaces .moduleBody (.node (.importItem decl) attributes) code
        ⟨.imported, decl.source, (Shape.ofImport decl).kind, code.length⟩

mutual

/-- **A tree written anew**: its root keeps its form. The reports on what is below the children come
    before those on the children themselves. -/
inductive Rewritten : Node → Node → List Report → Prop where
  | node {form : Form} {children children' : List Node} {below own : List Report} :
      RewrittenAll form children children' below own →
      Rewritten (.node form children) (.node form children') (below ++ own)

/-- **The children of a form, written anew**, with the reports on what is below them and those on
    themselves: each child is kept, and written anew itself, or it is replaced. -/
inductive RewrittenAll :
    Form → List Node → List Node → List Report → List Report → Prop where
  | nil {form : Form} : RewrittenAll form [] [] [] []
  | kept {form : Form} {child child' : Node} {rest rest' : List Node}
      {inside below own : List Report} :
      Rewritten child child' inside → RewrittenAll form rest rest' below own →
      RewrittenAll form (child :: rest) (child' :: rest') (inside ++ below) own
  | replaced {form : Form} {child : Node} {code rest rest' : List Node} {report : Report}
      {below own : List Report} :
      Replaces form child code report → RewrittenAll form rest rest' below own →
      RewrittenAll form (child :: rest) (code ++ rest') below (report :: own)

end

/-! ## Definitions of a supported pattern -/

theorem Shape.isPlainAll_of_fieldOf? {entries : List Node} {fields : List (String × Binding)}
    (h : entries.mapM fieldOf? = some fields) : Node.isPlainAll entries = true := by
  induction entries generalizing fields with
  | nil => rfl
  | cons entry rest ih =>
      obtain ⟨field, fs, hfield, hfs, rfl⟩ := mapM_cons_eq_some_iff.mp h
      have hentry : entry.isPlain = true := by
        obtain ⟨rfl, -⟩ | rfl := fieldOf?_eq_some_iff.mp hfield <;> rfl
      rw [Node.isPlainAll, hentry, ih hfs]
      rfl

namespace Definition

theorem isDefinition_declarator {d : Definition} (h : d.value.isData = true) :
    d.declarator.IsDefinition := by
  refine ⟨d.target, d.value, rfl, ?_, h⟩
  intro habsent
  rw [habsent] at h
  cases h

theorem isConstant_constant {d : Definition} (h : d.value.isData = true) :
    d.constant.IsConstant :=
  ⟨constantHead, d.declarator, rfl, rfl, isDefinition_declarator h⟩

/-- The last slot of a list pattern is never a hole, so there is a definition for it. -/
theorem ofSlots_ne_nil {v : Value} {module : String} {elements : List Node} {slots : List Slot}
    (h : Shape.slotsOf? elements = some slots) {i : Nat} {ds : List Definition}
    (hds : ofSlots v module i slots = .ok ds) : ds ≠ [] := by
  induction elements generalizing slots i ds with
  | nil => cases h
  | cons element rest ih =>
      obtain ⟨slot, -, hslot, rfl⟩ | ⟨slot, slots', -, hslots', rfl⟩ :=
        Shape.exists_of_slotsOf?_cons h
      · obtain ⟨ds', -, rfl, hrest⟩ := exists_of_ofSlots_cons hds
        have hsome : (ofSlot? v i slot).isSome = true := by
          obtain ⟨target, -, rfl⟩ | ⟨type, children, -, rfl⟩ :=
            Shape.lastSlotOf?_eq_some_iff.mp hslot
          · rfl
          · rw [ofSlot?, Option.isSome_map, hrest _ rfl]
        obtain ⟨d, hd⟩ := Option.isSome_iff_exists.mp hsome
        rw [hd]
        exact List.cons_ne_nil _ _
      · obtain ⟨ds', hds', rfl, -⟩ := exists_of_ofSlots_cons hds
        intro hnil
        exact ih hslots' hds' (List.append_eq_nil_iff.mp hnil).2

/-- **A pattern that is supported comes to at least one definition**: there are no empty patterns
    among them. -/
theorem ofTarget_ne_nil {pattern : Node} {v : Value} {module : String} {ds : List Definition}
    (hsupported : (Shape.ofTarget pattern).isSupported = true)
    (h : ofShape (Shape.ofTarget pattern) v module = .ok ds) : ds ≠ [] := by
  revert hsupported h
  fun_cases Shape.ofTarget pattern with
  | case1 target =>
      rintro - ⟨⟩
      exact List.cons_ne_nil _ _
  | case2 type entries field fields hfields =>
      intro _ h
      obtain ⟨members, rfl⟩ := eq_of_entries? h
      exact List.cons_ne_nil _ _
  | case4 type elements slots hslots =>
      intro _ h
      rw [ofShape] at h
      split at h
      · exact ofSlots_ne_nil hslots h
      · cases h
  | case3 =>
      intro hsupported
      cases hsupported
  | case5 =>
      intro hsupported
      cases hsupported
  | case6 =>
      intro hsupported
      cases hsupported

theorem isPlainAll_of_ofSlots {v : Value} {module : String} {elements : List Node}
    {slots : List Slot} (h : Shape.slotsOf? elements = some slots) {i : Nat}
    {ds : List Definition} (hds : ofSlots v module i slots = .ok ds) :
    Node.isPlainAll elements = true := by
  induction elements generalizing slots i ds with
  | nil => rfl
  | cons element rest ih =>
      rw [Node.isPlainAll, Bool.and_eq_true]
      obtain ⟨slot, rfl, hslot, rfl⟩ | ⟨slot, slots', hslot, hslots', rfl⟩ :=
        Shape.exists_of_slotsOf?_cons h
      · refine ⟨?_, rfl⟩
        obtain ⟨target, rfl, rfl⟩ | ⟨type, children, rfl, rfl⟩ :=
          Shape.lastSlotOf?_eq_some_iff.mp hslot
        · rfl
        · -- there are definitions, so the rest goes to a plain name
          obtain ⟨-, -, -, hrest⟩ := exists_of_ofSlots_cons hds
          obtain ⟨target, hname⟩ := Option.isSome_iff_exists.mp (hrest _ rfl)
          obtain ⟨type', hpattern⟩ := restName?_eq_some_iff.mp hname
          cases hpattern
          rfl
      · obtain ⟨ds', hds', -, -⟩ := exists_of_ofSlots_cons hds
        refine ⟨?_, ih hslots' hds'⟩
        obtain ⟨rfl, -⟩ | ⟨target, rfl, -⟩ := Shape.slotOf?_eq_some_iff.mp hslot <;> rfl

/-- A pattern that comes to definitions is plain. -/
theorem isPlain_of_ofTarget {pattern : Node} {v : Value} {module : String}
    {ds : List Definition} (hsupported : (Shape.ofTarget pattern).isSupported = true)
    (h : ofShape (Shape.ofTarget pattern) v module = .ok ds) : pattern.isPlain = true := by
  revert hsupported h
  fun_cases Shape.ofTarget pattern with
  | case1 target => exact fun _ _ => rfl
  | case2 type entries field fields hfields =>
      exact fun _ _ => Shape.isPlainAll_of_fieldOf? hfields
  | case4 type elements slots hslots =>
      intro _ h
      rw [ofShape] at h
      split at h
      · exact isPlainAll_of_ofSlots hslots h
      · cases h
  | case3 =>
      intro hsupported
      cases hsupported
  | case5 =>
      intro hsupported
      cases hsupported
  | case6 =>
      intro hsupported
      cases hsupported

end Definition

namespace Context

variable (ctx : Context)

/-! ## Replacing rewrites -/

/-- The report on a job, if it can be done. -/
def reportOf? (job : Job) : Option Report :=
  match ctx.definitions job with
  | .error _ => none
  | .ok ds => some ⟨job.origin, job.module, job.shape.kind, ds.length⟩

/-- **What is written for a job replaces the child that has the job.** -/
theorem replaces_code {form : Form} {child : Node} {job : Job} {ds : List Definition}
    (hjob : ctx.job? form child = some job) (hds : ctx.definitions job = .ok ds) :
    Replaces form child (job.code ds) ⟨job.origin, job.module, job.shape.kind, ds.length⟩ := by
  obtain ⟨value, -, hshape⟩ := ctx.definitions_eq_ok_iff.mp hds
  have hdata := Definition.isData_ofShape hshape
  have hnames := ctx.bindingsAll_code hjob hds
  cases form with
  | declaration head =>
      obtain ⟨⟨module, shape⟩, hrequired, rfl⟩ := Option.map_eq_some_iff.mp hjob
      obtain ⟨definite, target, init, rfl, hsource, -, hsupported, rfl⟩ :=
        ctx.required?_eq_some_iff.mp hrequired
      have hcode : ∀ n ∈ ds.map Definition.declarator, n.IsDefinition := by
        intro n hn
        obtain ⟨d, hd, rfl⟩ := List.mem_map.mp hn
        exact Definition.isDefinition_declarator (hdata d hd)
      have hne : ds.map Definition.declarator ≠ [] :=
        mt List.map_eq_nil_iff.mp (Definition.ofTarget_ne_nil hsupported hshape)
      rw [← List.length_map (f := Definition.declarator)]
      exact .required (Definition.isPlain_of_ofTarget hsupported hshape) hsource hne hcode hnames
  | moduleBody =>
      obtain ⟨childForm, attributes⟩ := child
      cases childForm with
      | importItem decl =>
          obtain ⟨-, -, rfl⟩ := ctx.importJob?_eq_some_iff.mp hjob
          have hcode : ∀ n ∈ ds.map Definition.constant, n.IsConstant := by
            intro n hn
            obtain ⟨d, hd, rfl⟩ := List.mem_map.mp hn
            exact Definition.isConstant_constant (hdata d hd)
          rw [← List.length_map (f := Definition.constant)]
          exact .imported hcode (hnames.trans (List.append_nil _))
      | _ => exact nomatch hjob
  | _ => exact nomatch hjob

/-- The report on the child number `i`, if it is replaced. -/
def reportAt? (done : Place → Bool) (form : Form) (i : Nat) (child : Node) : Option Report :=
  if done (siteOf form i) then (ctx.job? form child).bind ctx.reportOf? else none

theorem replaces_of_replacementAt? {done : Place → Bool} {form : Form} {i : Nat} {child : Node}
    {code : List Node} (h : ctx.replacementAt? done form i child = some code) :
    ∃ report, ctx.reportAt? done form i child = some report ∧ Replaces form child code report := by
  obtain ⟨hdone, hcode⟩ := ctx.replacementAt?_eq_some_iff.mp h
  obtain ⟨job, ds, hjob, hds, rfl⟩ := ctx.exists_job_of_replacement? hcode
  refine ⟨_, ?_, ctx.replaces_code hjob hds⟩
  rw [reportAt?, if_pos hdone, hjob, Option.bind_some, reportOf?, hds]

theorem reportAt?_eq_none {done : Place → Bool} {form : Form} {i : Nat} {child : Node}
    (h : ctx.replacementAt? done form i child = none) :
    ctx.reportAt? done form i child = none := by
  rw [replacementAt?, replacement?] at h
  rw [reportAt?]
  split at h
  · rename_i hdone
    rw [if_pos hdone]
    cases hjob : ctx.job? form child with
    | none => rfl
    | some job =>
        rw [hjob] at h
        rw [Option.bind_some, reportOf?]
        cases hds : ctx.definitions job with
        | error failure => rfl
        | ok ds => simp [hds] at h
  · rename_i hdone
    rw [if_neg hdone]

/-- The reports on the children from number `i` on, themselves. -/
def ownReports (done : Place → Bool) (form : Form) : Nat → List Node → List Report
  | _, [] => []
  | i, child :: rest =>
    (ctx.reportAt? done form i child).toList ++ ownReports done form (i + 1) rest

mutual

/-- **The reports on what is replaced in a tree**, in the order of the walk, if the tasks at the
    places in `done` are. Of a child that is replaced nothing is left to report on. -/
def reportsAt (done : Place → Bool) : Node → List Report
  | .node form children =>
    reportsBelow done form 0 children ++ ctx.ownReports done form 0 children

def reportsBelow (done : Place → Bool) (form : Form) (i : Nat) : List Node → List Report
  | [] => []
  | child :: rest =>
    (if (ctx.replacementAt? done form i child).isSome then []
      else reportsAt (fun p => done (i :: p)) child)
      ++ reportsBelow done form (i + 1) rest

end

mutual

/-- **Replacing some tasks of a tree rewrites it.** -/
theorem rewritten_inlineAt :
    ∀ (n : Node) (done : Place → Bool),
      Rewritten n (ctx.inlineAt done n) (ctx.reportsAt done n)
  | .node form children, done => by
      rw [inlineAt_node, reportsAt]
      exact .node (rewrittenAll_inlineAllAt form children 0 done)

theorem rewrittenAll_inlineAllAt (form : Form) :
    ∀ (children : List Node) (i : Nat) (done : Place → Bool),
      RewrittenAll form children (ctx.inlineAllAt done form i children)
        (ctx.reportsBelow done form i children) (ctx.ownReports done form i children)
  | [], _, _ => .nil
  | child :: rest, i, done => by
      have hrest := rewrittenAll_inlineAllAt form rest (i + 1) done
      rw [inlineAllAt_cons, reportsBelow, ownReports]
      cases hcode : ctx.replacementAt? done form i child with
      | none =>
          rw [ctx.reportAt?_eq_none hcode]
          exact .kept (rewritten_inlineAt child _) hrest
      | some code =>
          obtain ⟨report, hreport, hreplaces⟩ := ctx.replaces_of_replacementAt? hcode
          rw [hreport]
          exact .replaced hreplaces hrest

end

end Context

/-! ## Declarations with declarators -/

namespace Code.Node

/-- **Every declaration in a tree has a declarator**, at any depth. -/
def DeclarationsFilled (n : Node) : Prop :=
  ∀ head declarators, Within (node (.declaration head) declarators) n → declarators ≠ []

theorem declarationsFilled_node_iff {form : Form} {children : List Node} :
    (node form children).DeclarationsFilled ↔
      (∀ head, form = .declaration head → children ≠ []) ∧
        ∀ c ∈ children, c.DeclarationsFilled := by
  simp only [DeclarationsFilled, within_node_iff, node.injEq]
  grind

theorem isPlain_node_iff {form : Form} {children : List Node} :
    (node form children).isPlain = true ↔
      form.isOpen = false ∧ ∀ c ∈ children, c.isPlain = true := by
  have hall : isPlainAll children = true ↔ ∀ c ∈ children, c.isPlain = true := by
    induction children with
    | nil => simp [isPlainAll]
    | cons c rest ih => rw [isPlainAll, Bool.and_eq_true, ih, List.forall_mem_cons]
  rw [isPlain, Bool.and_eq_true, Bool.not_eq_true', hall]

mutual

theorem isPlain_of_isData : ∀ n : Node, n.isData = true → n.isPlain = true
  | node form children, h => by
      rw [isData, Bool.and_eq_true] at h
      rw [isPlain, isOpen_of_isData h.1, isPlainAll_of_isDataAll children h.2]
      rfl

theorem isPlainAll_of_isDataAll : ∀ ns : List Node, isDataAll ns = true → isPlainAll ns = true
  | [], _ => rfl
  | n :: rest, h => by
      rw [isDataAll, Bool.and_eq_true] at h
      rw [isPlainAll, isPlain_of_isData n h.1, isPlainAll_of_isDataAll rest h.2]
      rfl

end

theorem IsDefinition.isPlain {n : Node} (h : n.IsDefinition) : n.isPlain = true := by
  obtain ⟨target, value, rfl, -, hdata⟩ := h
  refine isPlain_node_iff.mpr ⟨rfl, List.forall_mem_cons.mpr ⟨rfl, ?_⟩⟩
  exact List.forall_mem_singleton.mpr (isPlain_of_isData value hdata)

theorem Within.isPlain {m n : Node} (h : Within m n) (hn : n.isPlain = true) :
    m.isPlain = true := by
  induction h with
  | self => exact hn
  | child hc _ ih => exact ih ((isPlain_node_iff.mp hn).2 _ hc)

/-- Nothing is declared inside a definition: a declaration is not plain. -/
theorem IsDefinition.declarationsFilled {n : Node} (h : n.IsDefinition) :
    n.DeclarationsFilled := by
  intro head declarators hwithin
  exact nomatch (isPlain_node_iff.mp (hwithin.isPlain h.isPlain)).1

theorem IsConstant.declarationsFilled {n : Node} (h : n.IsConstant) : n.DeclarationsFilled := by
  obtain ⟨head, d, rfl, -, hd⟩ := h
  refine declarationsFilled_node_iff.mpr ⟨fun _ _ => List.cons_ne_nil _ _, ?_⟩
  intro c hc
  rw [List.mem_singleton.mp hc]
  exact hd.declarationsFilled

end Code.Node

theorem Replaces.declarationsFilled {form : Form} {child : Node} {code : List Node}
    {report : Report} (h : Replaces form child code report) :
    ∀ n ∈ code, n.DeclarationsFilled := by
  cases h with
  | required _ _ _ hcode _ => exact fun n hn => (hcode n hn).declarationsFilled
  | imported hcode _ => exact fun n hn => (hcode n hn).declarationsFilled

/-- A declaration with declarators keeps some: a declarator that is replaced leaves at least one. -/
theorem RewrittenAll.ne_nil {head : DeclarationHead} {children children' : List Node}
    {below own : List Report} (h : RewrittenAll (.declaration head) children children' below own)
    (hne : children ≠ []) : children' ≠ [] := by
  cases h with
  | nil => exact hne
  | kept _ _ => exact List.cons_ne_nil _ _
  | replaced hreplaces _ =>
      cases hreplaces with
      | required _ _ hcode _ _ =>
          intro hnil
          exact hcode (List.append_eq_nil_iff.mp hnil).1

mutual

/-- **A tree that is written anew keeps its declarations filled.** -/
theorem Rewritten.declarationsFilled {n n' : Node} {reports : List Report} :
    Rewritten n n' reports → n.DeclarationsFilled → n'.DeclarationsFilled
  | .node hall, h => by
      obtain ⟨hroot, hbelow⟩ := Node.declarationsFilled_node_iff.mp h
      refine Node.declarationsFilled_node_iff.mpr ⟨?_, hall.declarationsFilled hbelow⟩
      rintro head rfl
      exact hall.ne_nil (hroot head rfl)

theorem RewrittenAll.declarationsFilled {form : Form} {children children' : List Node}
    {below own : List Report} :
    RewrittenAll form children children' below own →
    (∀ c ∈ children, c.DeclarationsFilled) → ∀ c ∈ children', c.DeclarationsFilled
  | .nil, _ => fun _ hc => nomatch hc
  | .kept hchild hrest, h => by
      obtain ⟨hfilled, hothers⟩ := List.forall_mem_cons.mp h
      exact List.forall_mem_cons.mpr
        ⟨hchild.declarationsFilled hfilled, hrest.declarationsFilled hothers⟩
  | .replaced hreplaces hrest, h => by
      obtain ⟨-, hothers⟩ := List.forall_mem_cons.mp h
      intro c hc
      rcases List.mem_append.mp hc with hcode | hmem
      · exact hreplaces.declarationsFilled c hcode
      · exact hrest.declarationsFilled hothers c hmem

end

/-- **A run keeps declarations well formed**, whether it succeeds or fails. If every declaration of
    the program has a declarator, so has every declaration that is left, at any depth. What is left
    is the program written anew: only constants of one definition stand in place of an import, and
    only definitions, at least one, in place of a declarator with a `require`. Each of them has a
    plain name and an initialiser. -/
theorem Context.run_keeps_declarations_well_formed (ctx : Context) (program : Node)
    (h : program.DeclarationsFilled) :
    (ctx.run program).1.DeclarationsFilled ∧
    ∃ reports, Rewritten program (ctx.run program).1 reports := by
  have hrewritten := ctx.rewritten_inlineAt program (placesOf (ctx.replacedStops program))
  rw [← ctx.run_tree] at hrewritten
  exact ⟨hrewritten.declarationsFilled h, _, hrewritten⟩

/-- The run of `brokenModule` fails, and replaces the declaration before the failing one. -/
theorem brokenModule_stays_well_formed :
    brokenModule.DeclarationsFilled ∧
    (loneFile.run brokenModule).1.DeclarationsFilled ∧
    ∃ reports, Rewritten brokenModule (loneFile.run brokenModule).1 reports := by
  have hfilled : brokenModule.DeclarationsFilled := by
    simp [brokenModule, requiring, Node.declarationsFilled_node_iff]
  exact ⟨hfilled, loneFile.run_keeps_declarations_well_formed brokenModule hfilled⟩

end Inlay
