import Inlay.Inlining
import Inlay.Proofs.Sketch
import Inlay.Proofs.Stops

/-!
# Replacing as a map on trees

Which declarations ask for a module, what stands in their place, and the tree with some of them
replaced, all told **without a run**: no journal, no order, nothing that stops. Every decision is
made on the tree as it is given.

* `Context.Asks`: a task asks for a module in a shape; `Context.jobs` lists what it asks for.
* `Context.definitions`: what comes of one job when it is done alone.
* `Context.inlined`: the tree with everything replaced that can be.
* `Context.inlineAt`: the tree with the tasks at some places replaced, and no others.
* `sketch_inlineAt`: no replacement shows in the sketch, so none below a declarator changes what the
  declarator asks for (`job?_of_sketch_eq`).
-/

namespace Inlay

open Code

/-- **A job**: a module to be loaded, for which kind of declaration and into which shape. -/
structure Job where
  origin : Origin
  module : String
  shape : Shape

/-- A job with its shape sketched. -/
def Job.sketch (job : Job) : Job := { job with shape := job.shape.sketch }

/-- The code of definitions: declarators for a `require`, declarations of their own for an import.
    -/
def Job.code (job : Job) (ds : List Definition) : List Node :=
  match job.origin with
  | .required => ds.map Definition.declarator
  | .imported => ds.map Definition.constant

namespace Context

variable (ctx : Context)

/-! ## Jobs -/

/-- **A task asks for a module.** A declaration does for each declarator whose initialiser requires
    a data module and whose pattern is supported, an import if its module is a data module and its
    specifiers are supported. -/
inductive Asks : Task → Job → Prop where
  | required {head : DeclarationHead} {declarators : List Node} {definite : Bool}
      {target init : Node} {module : String} :
      Node.declarator definite target init ∈ declarators →
      requireSource? init = some module → ctx.matcher.accepts module = true →
      (Shape.ofTarget target).isSupported = true →
      Asks (.declaration head declarators) ⟨.required, module, Shape.ofTarget target⟩
  | imported {decl : Import} :
      ctx.matcher.accepts decl.source = true → (Shape.ofImport decl).isSupported = true →
      Asks (.importing decl) ⟨.imported, decl.source, Shape.ofImport decl⟩

/-- The job of an import. -/
def importJob? (decl : Import) : Option Job :=
  if ctx.matcher.accepts decl.source && (Shape.ofImport decl).isSupported then
    some ⟨.imported, decl.source, Shape.ofImport decl⟩
  else none

/-- The job of a child of a node: of a declarator in a declaration, of an import in a module body.
    -/
def job? (form : Form) (child : Node) : Option Job :=
  match form, child with
  | .declaration _, child =>
    (ctx.required? child).map fun (module, shape) => ⟨.required, module, shape⟩
  | .moduleBody, .node (.importItem decl) _ => ctx.importJob? decl
  | _, _ => none

/-- **The jobs of a task**, first to last. -/
def jobs : Task → List Job
  | .declaration head declarators => declarators.filterMap (ctx.job? (.declaration head))
  | .importing decl => (ctx.importJob? decl).toList

/-- **An eligible task**: any declaration, and an import that asks for a module. -/
def isEligible : Task → Bool
  | .declaration _ _ => true
  | .importing decl => (ctx.importJob? decl).isSome

/-- The shape of a declarator with a source is that of its pattern, if the source is accepted. -/
theorem required?_declarator {definite : Bool} {target init : Node} {source : String}
    (h : requireSource? init = some source) :
    ctx.required? (.declarator definite target init)
      = if ctx.matcher.accepts source = true ∧ (Shape.ofTarget target).isSupported = true then
          some (source, Shape.ofTarget target)
        else none := by
  have hshape : Shape.ofDeclarator ctx.matcher.accepts (.declarator definite target init)
      = if ctx.matcher.accepts source then Shape.ofTarget target else .unsupported := by
    rw [Shape.ofDeclarator, h]
  rw [required?, hshape, Node.init, h]
  by_cases haccepts : ctx.matcher.accepts source = true
  · simp only [haccepts, if_true, true_and]
  · simp only [haccepts]
    rfl

/-- A declarator that is to be replaced requires a data module in a supported pattern. -/
theorem required?_eq_some_iff {d : Node} {module : String} {shape : Shape} :
    ctx.required? d = some (module, shape) ↔
      ∃ definite target init, d = .declarator definite target init ∧
        requireSource? init = some module ∧ ctx.matcher.accepts module = true ∧
        (Shape.ofTarget target).isSupported = true ∧ shape = Shape.ofTarget target := by
  constructor
  · intro h
    obtain ⟨form, children⟩ := d
    cases form with
    | declarator definite =>
        rcases children with _ | ⟨target, _ | ⟨init, _ | ⟨c, rest⟩⟩⟩
        · exact nomatch h
        · exact nomatch h
        · cases hsource : requireSource? init with
          | none =>
              rw [required?, Node.init, hsource] at h
              exact nomatch h
          | some source =>
              rw [ctx.required?_declarator hsource, ite_eq_iff] at h
              rcases h with ⟨⟨haccepts, hsupported⟩, heq⟩ | ⟨-, heq⟩
              · cases heq
                exact ⟨definite, target, init, rfl, hsource, haccepts, hsupported, rfl⟩
              · exact nomatch heq
        · exact nomatch h
    | _ => exact nomatch h
  · rintro ⟨definite, target, init, rfl, hsource, haccepts, hsupported, rfl⟩
    rw [ctx.required?_declarator hsource, if_pos ⟨haccepts, hsupported⟩]

/-- The job of an import, and when there is one. -/
theorem importJob?_eq_some_iff {decl : Import} {job : Job} :
    ctx.importJob? decl = some job ↔
      ctx.matcher.accepts decl.source = true ∧ (Shape.ofImport decl).isSupported = true ∧
        job = ⟨.imported, decl.source, Shape.ofImport decl⟩ := by
  rw [importJob?, ite_eq_iff, Bool.and_eq_true]
  constructor
  · rintro (⟨⟨haccepts, hsupported⟩, h⟩ | ⟨-, h⟩)
    · exact ⟨haccepts, hsupported, (Option.some.inj h).symm⟩
    · exact nomatch h
  · rintro ⟨haccepts, hsupported, rfl⟩
    exact Or.inl ⟨⟨haccepts, hsupported⟩, rfl⟩

/-- **The jobs of a task are what it asks for.** -/
theorem mem_jobs_iff {task : Task} {job : Job} : job ∈ ctx.jobs task ↔ ctx.Asks task job := by
  constructor
  · intro h
    cases task with
    | declaration head declarators =>
        obtain ⟨d, hd, hjob⟩ := List.mem_filterMap.mp h
        obtain ⟨⟨module, shape⟩, hrequired, rfl⟩ := Option.map_eq_some_iff.mp hjob
        obtain ⟨definite, target, init, rfl, hsource, haccepts, hsupported, rfl⟩ :=
          ctx.required?_eq_some_iff.mp hrequired
        exact .required hd hsource haccepts hsupported
    | importing decl =>
        obtain ⟨haccepts, hsupported, rfl⟩ :=
          ctx.importJob?_eq_some_iff.mp (Option.mem_toList.mp h)
        exact .imported haccepts hsupported
  · intro h
    cases h with
    | required hd hsource haccepts hsupported =>
        refine List.mem_filterMap.mpr ⟨_, hd, ?_⟩
        exact Option.map_eq_some_iff.mpr ⟨_, ctx.required?_eq_some_iff.mpr
          ⟨_, _, _, rfl, hsource, haccepts, hsupported, rfl⟩, rfl⟩
    | imported haccepts hsupported =>
        exact Option.mem_toList.mpr
          (ctx.importJob?_eq_some_iff.mpr ⟨haccepts, hsupported, rfl⟩)

/-- Children of closed forms have no jobs. -/
theorem job?_of_closed {form : Form} (h : form.isOpen = false) (child : Node) :
    ctx.job? form child = none := by
  cases form with
  | declaration head => exact nomatch h
  | moduleBody => exact nomatch h
  | _ => rfl

/-- What a declarator asks for is seen in its sketch, up to what is below a rest pattern. -/
theorem required?_sketch (d : Node) :
    ctx.required? d.sketch
      = (ctx.required? d).map fun (module, shape) => (module, shape.sketch) := by
  rw [required?, required?, init_sketch, requireSource?_sketch, Shape.ofDeclarator_sketch,
    Shape.isSupported_sketch]
  cases requireSource? d.init with
  | none => rfl
  | some source =>
      show (if (Shape.ofDeclarator ctx.matcher.accepts d).isSupported then
          some (source, (Shape.ofDeclarator ctx.matcher.accepts d).sketch) else none)
        = (if (Shape.ofDeclarator ctx.matcher.accepts d).isSupported then
          some (source, Shape.ofDeclarator ctx.matcher.accepts d) else none).map _
      split <;> rfl

/-! ## Jobs done alone -/

/-- **What comes of a job**: its definitions, or why there are none. -/
def definitions (job : Job) : Except Failure (List Definition) :=
  match ctx.fetch job.module with
  | .error failure => .error failure
  | .ok value => Definition.ofShape job.shape value job.module

/-- Why a job fails, if it does. -/
def fault? (job : Job) : Option Failure :=
  match ctx.definitions job with
  | .error failure => some failure
  | .ok _ => none

/-- **Why a task fails**, if it does: its first job that fails says why. -/
def verdict (task : Task) : Option Failure := (ctx.jobs task).findSome? ctx.fault?

/-- A job comes to definitions if its module loads and the shape can take it. -/
theorem definitions_eq_ok_iff {job : Job} {ds : List Definition} :
    ctx.definitions job = .ok ds ↔
      ∃ value, ctx.fetch job.module = .ok value ∧
        Definition.ofShape job.shape value job.module = .ok ds := by
  rw [definitions]
  cases ctx.fetch job.module with
  | error failure =>
      constructor
      · intro h
        exact nomatch h
      · rintro ⟨value, hvalue, -⟩
        exact nomatch hvalue
  | ok value =>
      constructor
      · intro h
        exact ⟨value, rfl, h⟩
      · rintro ⟨value', hvalue, h⟩
        cases hvalue
        exact h

/-- A job without fault comes to definitions. -/
theorem fault?_eq_none_iff {job : Job} :
    ctx.fault? job = none ↔ ∃ ds, ctx.definitions job = .ok ds := by
  rw [fault?]
  cases ctx.definitions job with
  | error failure => simp
  | ok ds => simp

/-- A task without verdict has only jobs that come to definitions. -/
theorem verdict_eq_none_iff {task : Task} :
    ctx.verdict task = none ↔ ∀ job ∈ ctx.jobs task, ∃ ds, ctx.definitions job = .ok ds := by
  rw [verdict, List.findSome?_eq_none_iff]
  constructor
  · intro h job hjob
    exact ctx.fault?_eq_none_iff.mp (h job hjob)
  · intro h job hjob
    exact ctx.fault?_eq_none_iff.mpr (h job hjob)

/-- What comes of a job does not depend on what is below a rest pattern. -/
theorem definitions_sketch (job : Job) : ctx.definitions job.sketch = ctx.definitions job := by
  rw [definitions, definitions, show job.sketch.module = job.module from rfl]
  cases ctx.fetch job.module with
  | error failure => rfl
  | ok value => exact Definition.ofShape_sketch job.shape value job.module

theorem fault?_sketch (job : Job) : ctx.fault? job.sketch = ctx.fault? job := by
  rw [fault?, fault?, definitions_sketch]

/-- **Declarators with one sketch have one job**, up to what is below a rest pattern. -/
theorem job?_of_sketch_eq (head : DeclarationHead) {d d' : Node} (h : d'.sketch = d.sketch) :
    (ctx.job? (.declaration head) d').map Job.sketch
      = (ctx.job? (.declaration head) d).map Job.sketch := by
  have hboth : ∀ n : Node, (ctx.job? (.declaration head) n).map Job.sketch
      = (ctx.required? n.sketch).map fun (module, shape) => ⟨.required, module, shape⟩ := by
    intro n
    rw [required?_sketch, job?]
    cases ctx.required? n <;> rfl
  rw [hboth, hboth, h]

/-! ## Trees with replacements -/

/-- **What stands in place of a child**, if it has a job and the job can be done. -/
def replacement? (form : Form) (child : Node) : Option (List Node) :=
  match ctx.job? form child with
  | none => none
  | some job =>
    match ctx.definitions job with
    | .error _ => none
    | .ok ds => some (job.code ds)

mutual

/-- **The tree with everything replaced that can be.** -/
def inlined : Node → Node
  | .node form children => .node form (inlinedAll form children)

/-- The children of a form, each replaced in place or with everything in it replaced. -/
def inlinedAll (form : Form) : List Node → List Node
  | [] => []
  | child :: rest =>
    (ctx.replacement? form child).getD [inlined child] ++ inlinedAll form rest

end

/-- The place of the stop that decides about the child number `i`: the import itself among the items
    of a module, and the parent elsewhere. -/
def siteOf (form : Form) (i : Nat) : Place :=
  match form with
  | .moduleBody => [i]
  | _ => []

/-- What stands in place of the child number `i`, if `done` holds where it is decided. -/
def replacementAt? (done : Place → Bool) (form : Form) (i : Nat) (child : Node) :
    Option (List Node) :=
  if done (siteOf form i) then ctx.replacement? form child else none

theorem replacementAt?_eq_some_iff {done : Place → Bool} {form : Form} {i : Nat} {child : Node}
    {code : List Node} :
    ctx.replacementAt? done form i child = some code ↔
      done (siteOf form i) = true ∧ ctx.replacement? form child = some code := by
  rw [replacementAt?]
  cases done (siteOf form i) <;> simp

mutual

/-- **The tree with the tasks at the places in `done` replaced**, and everything else as it was. -/
def inlineAt (done : Place → Bool) : Node → Node
  | .node form children => .node form (inlineAllAt done form 0 children)

/-- The children of a form from number `i` on. -/
def inlineAllAt (done : Place → Bool) (form : Form) (i : Nat) : List Node → List Node
  | [] => []
  | child :: rest =>
    (ctx.replacementAt? done form i child).getD [inlineAt (fun p => done (i :: p)) child]
      ++ inlineAllAt done form (i + 1) rest

end

/-- The children from number `i` on, each as it is by itself and none replaced. -/
def imagesAt (done : Place → Bool) : Nat → List Node → List Node
  | _, [] => []
  | i, child :: rest =>
    ctx.inlineAt (fun p => done (i :: p)) child :: imagesAt done (i + 1) rest

theorem inlineAt_node (done : Place → Bool) (form : Form) (children : List Node) :
    ctx.inlineAt done (.node form children)
      = .node form (ctx.inlineAllAt done form 0 children) := rfl

theorem inlineAllAt_cons (done : Place → Bool) (form : Form) (i : Nat) (child : Node)
    (rest : List Node) :
    ctx.inlineAllAt done form i (child :: rest)
      = (ctx.replacementAt? done form i child).getD
          [ctx.inlineAt (fun p => done (i :: p)) child]
        ++ ctx.inlineAllAt done form (i + 1) rest := rfl

theorem imagesAt_cons (done : Place → Bool) (i : Nat) (child : Node) (rest : List Node) :
    ctx.imagesAt done i (child :: rest)
      = ctx.inlineAt (fun p => done (i :: p)) child :: ctx.imagesAt done (i + 1) rest := rfl

mutual

/-- **With all places done, everything is replaced.** -/
theorem inlineAt_all : ∀ n : Node, ctx.inlineAt (fun _ => true) n = ctx.inlined n
  | .node form children => by
      rw [inlineAt, inlined, inlineAllAt_all form children 0]

theorem inlineAllAt_all (form : Form) :
    ∀ (children : List Node) (i : Nat),
      ctx.inlineAllAt (fun _ => true) form i children = ctx.inlinedAll form children
  | [], _ => rfl
  | child :: rest, i => by
      rw [inlineAllAt, inlinedAll, inlineAt_all child, inlineAllAt_all form rest (i + 1)]
      rfl

end

/-- Below a closed form nothing is replaced. -/
theorem replacement?_of_closed {form : Form} (h : form.isOpen = false) (child : Node) :
    ctx.replacement? form child = none := by
  rw [replacement?, ctx.job?_of_closed h]

theorem replacementAt?_of_closed {form : Form} (h : form.isOpen = false) (done : Place → Bool)
    (i : Nat) (child : Node) : ctx.replacementAt? done form i child = none := by
  rw [replacementAt?, ctx.replacement?_of_closed h]
  split <;> rfl

mutual

/-- **No replacement shows in the sketch.** -/
theorem sketch_inlineAt :
    ∀ (n : Node) (done : Place → Bool), (ctx.inlineAt done n).sketch = n.sketch
  | .node form children, done => by
      cases h : form.isOpen with
      | true =>
          -- whatever is replaced among these children, the sketch leaves them out
          rw [inlineAt, Node.sketch, Node.sketch, h]
          rfl
      | false =>
          rw [inlineAt, Node.sketch_of_closed h, Node.sketch_of_closed h,
            sketchAll_inlineAllAt form h children 0 done]

theorem sketchAll_inlineAllAt (form : Form) (h : form.isOpen = false) :
    ∀ (children : List Node) (i : Nat) (done : Place → Bool),
      Node.sketchAll (ctx.inlineAllAt done form i children) = Node.sketchAll children
  | [], _, _ => rfl
  | child :: rest, i, done => by
      rw [inlineAllAt, ctx.replacementAt?_of_closed h, Option.getD_none, List.singleton_append,
        Node.sketchAll_cons, Node.sketchAll_cons, sketch_inlineAt child,
        sketchAll_inlineAllAt form h rest (i + 1) done]

end

/-- **Declarators with one sketch are replaced alike.** -/
theorem replacement?_of_sketch_eq (head : DeclarationHead) {d d' : Node}
    (h : d'.sketch = d.sketch) :
    ctx.replacement? (.declaration head) d' = ctx.replacement? (.declaration head) d := by
  have hjob := ctx.job?_of_sketch_eq head h
  rw [replacement?, replacement?]
  cases hd' : ctx.job? (.declaration head) d' with
  | none =>
      cases hd : ctx.job? (.declaration head) d with
      | none => rfl
      | some job => rw [hd', hd] at hjob; exact nomatch hjob
  | some job' =>
      cases hd : ctx.job? (.declaration head) d with
      | none => rw [hd', hd] at hjob; exact nomatch hjob
      | some job =>
          rw [hd', hd] at hjob
          have hsketch : job'.sketch = job.sketch := Option.some.inj hjob
          have horigin : job'.sketch.origin = job.sketch.origin := by rw [hsketch]
          dsimp only
          rw [← ctx.definitions_sketch job', hsketch, ctx.definitions_sketch job]
          cases ctx.definitions job with
          | error failure => rfl
          | ok ds =>
              show some (job'.code ds) = some (job.code ds)
              rw [Job.code, Job.code, show job'.origin = job.origin from horigin]

/-! ## Where nothing is done -/

/-- **Nothing is done at these stops**, as far as they are eligible. -/
def Untouched (done : Place → Bool) (stops : List Stop) : Prop :=
  ∀ s ∈ stops, ctx.isEligible s.task = true → done s.place = false

variable {ctx} in
theorem Untouched.left {done : Place → Bool} {first second : List Stop}
    (h : ctx.Untouched done (first ++ second)) : ctx.Untouched done first := by
  intro s hs
  exact h s (List.mem_append_left _ hs)

variable {ctx} in
theorem Untouched.right {done : Place → Bool} {first second : List Stop}
    (h : ctx.Untouched done (first ++ second)) : ctx.Untouched done second := by
  intro s hs
  exact h s (List.mem_append_right _ hs)

variable {ctx} in
/-- Stops of a child, seen from the child. -/
theorem Untouched.of_inChild {done : Place → Bool} {i : Nat} {stops : List Stop}
    (h : ctx.Untouched done (stops.map (Stop.inChild i))) :
    ctx.Untouched (fun p => done (i :: p)) stops := by
  intro s hs heligible
  exact h (s.inChild i) (List.mem_map_of_mem hs) heligible

/-- If no child is replaced, the children are what they are by themselves. -/
theorem inlineAllAt_eq_imagesAt (done : Place → Bool) (form : Form) (children : List Node)
    (i : Nat)
    (h : ∀ k child, children[k]? = some child →
      ctx.replacementAt? done form (i + k) child = none) :
    ctx.inlineAllAt done form i children = ctx.imagesAt done i children := by
  induction children generalizing i with
  | nil => rfl
  | cons child rest ih =>
      have hrest : ∀ k c, rest[k]? = some c →
          ctx.replacementAt? done form (i + 1 + k) c = none := by
        intro k c hk
        rw [Nat.add_assoc, Nat.add_comm 1 k]
        exact h (k + 1) c hk
      have hhere : ctx.replacementAt? done form i child = none := h 0 child rfl
      rw [inlineAllAt_cons, imagesAt_cons, hhere, ih (i + 1) hrest]
      rfl

/-- Below a closed form, the children are what they are by themselves. -/
theorem inlineAllAt_of_closed {form : Form} (h : form.isOpen = false) (done : Place → Bool)
    (children : List Node) (i : Nat) :
    ctx.inlineAllAt done form i children = ctx.imagesAt done i children :=
  ctx.inlineAllAt_eq_imagesAt done form children i
    (fun _ child _ => ctx.replacementAt?_of_closed h done _ child)

/-- An import that is not done keeps its place. -/
theorem replacementAt?_import_eq_none {done : Place → Bool} {k : Nat} {decl : Import}
    {attributes : List Node}
    (h : ctx.isEligible (.importing decl) = true → done [k] = false) :
    ctx.replacementAt? done .moduleBody k (.node (.importItem decl) attributes) = none := by
  rw [replacementAt?, siteOf]
  cases hjob : ctx.importJob? decl with
  | some job =>
      rw [h (by rw [isEligible, hjob]; rfl)]
      rfl
  | none =>
      rw [replacement?, job?, hjob]
      split <;> rfl

/-- Where nothing is done at the imports of a module, none of its items is replaced. -/
theorem replacementAt?_item_of_untouched {done : Place → Bool} {items : List Node} {i : Nat}
    (h : ctx.Untouched done (Node.importStops i items)) {k : Nat} {item : Node}
    (hk : items[k]? = some item) : ctx.replacementAt? done .moduleBody (i + k) item = none := by
  obtain ⟨form, children⟩ := item
  cases form with
  | importItem decl =>
      refine ctx.replacementAt?_import_eq_none (fun heligible => ?_)
      exact h _ (Node.mem_importStops i hk) heligible
  | _ =>
      rw [replacementAt?, replacement?]
      split <;> rfl

/-- Where nothing is done at a node, none of its children is replaced. -/
theorem replacementAt?_of_untouched {done : Place → Bool} {form : Form} {children : List Node}
    (h : ctx.Untouched done (Node.ownStops form children)) {k : Nat} {child : Node}
    (hk : children[k]? = some child) : ctx.replacementAt? done form (0 + k) child = none := by
  cases form with
  | declaration head =>
      have hroot : done [] = false := h _ List.mem_cons_self rfl
      rw [replacementAt?, show siteOf (.declaration head) (0 + k) = [] from rfl, hroot]
      rfl
  | moduleBody => exact ctx.replacementAt?_item_of_untouched h hk
  | _ => exact ctx.replacementAt?_of_closed rfl done (0 + k) child

mutual

/-- **Where nothing is done, a tree stays as it is.** -/
theorem inlineAt_of_untouched :
    ∀ (n : Node) (done : Place → Bool), ctx.Untouched done n.stops → ctx.inlineAt done n = n
  | .node form children, done, h => by
      rw [Node.stops_node] at h
      rw [inlineAt_node, ctx.inlineAllAt_eq_imagesAt done form children 0
        (fun _ _ hk => ctx.replacementAt?_of_untouched h.right hk),
        imagesAt_of_untouched children 0 done h.left]

theorem imagesAt_of_untouched :
    ∀ (children : List Node) (i : Nat) (done : Place → Bool),
      ctx.Untouched done (Node.stopsAll i children) → ctx.imagesAt done i children = children
  | [], _, _, _ => rfl
  | child :: rest, i, done, h => by
      rw [Node.stopsAll_cons] at h
      rw [imagesAt_cons, inlineAt_of_untouched child _ h.left.of_inChild,
        imagesAt_of_untouched rest (i + 1) done h.right]

end

end Context

end Inlay
