import Inlay.Proofs.Replacement

/-!
# A run is its stops, one after the other

A run walks a tree with a journal in hand, settles each node behind its children, and lets go of
everything once a failure is in the journal. Here the walk is taken apart into **the list of its
stops**: the journal of a run is what the stops write when their tasks are performed first to last,
and the tree that it leaves is the given tree with the tasks before the first failure replaced. The
second half compares two very different things, since a run decides about a declaration when what is
below it is already replaced, while `Context.inlineAt` decides on the tree as it is given.

* `Context.perform`: what one task does to a journal.
* `Reaches done stops`: `done` holds at the stops before the first failure and at no later one.
* `run_eq`: a run in terms of the two, from `visit_run`, the walk of any part of a tree.
* `failure_performAll`: the failure that is recorded is that of the first task with a verdict.
-/

namespace Inlay

open Code

/-! ## Journals -/

namespace Journal

/-- Writes events, first to last. -/
def notes (j : Journal) (events : List Event) : Journal := { j with events := j.events ++ events }

@[simp] theorem notes_nil (j : Journal) : j.notes [] = j := by
  rw [notes, List.append_nil]

theorem notes_notes (j : Journal) (first second : List Event) :
    (j.notes first).notes second = j.notes (first ++ second) := by
  rw [notes, notes, notes, List.append_assoc]

@[simp] theorem stopped_fail (j : Journal) (span : Span) (failure : Failure) :
    (j.fail span failure).stopped = true := by
  rw [stopped, fail]
  cases j.failure <;> rfl

end Journal

namespace Context

variable (ctx : Context)

/-! ## Performing tasks -/

/-- **The events of a job**: its module is read, and its definitions are told if it has any. -/
def jobEvents (job : Job) : List Event :=
  .reading job.module (ctx.pathOf job.module) ::
    match ctx.definitions job with
    | .error _ => []
    | .ok ds => [.inlined job.origin job.module job.shape.kind ds.length]

/-- The events of jobs done one after the other. The first failure ends it. -/
def trace : List Job → List Event
  | [] => []
  | job :: rest =>
    ctx.jobEvents job ++
      match ctx.fault? job with
      | none => trace rest
      | some _ => []

/-- **The events of a task.** A data module that is imported in a way that is not supported is told
    and passed over. -/
def taskEvents : Task → List Event
  | .declaration head declarators => ctx.trace (ctx.jobs (.declaration head declarators))
  | .importing decl =>
    if ctx.matcher.accepts decl.source && !(Shape.ofImport decl).isSupported then
      [.passedOver decl.source]
    else ctx.trace (ctx.jobs (.importing decl))

/-- **Performs a task**: its events are written, and its verdict is recorded. A journal that is
    stopped stays as it is. -/
def perform (j : Journal) (task : Task) : Journal :=
  if j.stopped then j
  else
    match ctx.verdict task with
    | none => j.notes (ctx.taskEvents task)
    | some failure => (j.notes (ctx.taskEvents task)).fail task.span failure

/-- Performs the tasks of stops, first to last. -/
def performAll (j : Journal) : List Stop → Journal
  | [] => j
  | s :: rest => performAll (ctx.perform j s.task) rest

@[simp] theorem performAll_cons (j : Journal) (s : Stop) (rest : List Stop) :
    ctx.performAll j (s :: rest) = ctx.performAll (ctx.perform j s.task) rest := rfl

theorem performAll_append (j : Journal) (first second : List Stop) :
    ctx.performAll j (first ++ second) = ctx.performAll (ctx.performAll j first) second := by
  induction first generalizing j with
  | nil => rfl
  | cons s rest ih => exact ih (ctx.perform j s.task)

/-- Where a stop stands does not matter to the journal. -/
theorem performAll_inChild (j : Journal) (i : Nat) (stops : List Stop) :
    ctx.performAll j (stops.map (Stop.inChild i)) = ctx.performAll j stops := by
  induction stops generalizing j with
  | nil => rfl
  | cons s rest ih => exact ih (ctx.perform j s.task)

theorem perform_of_stopped {j : Journal} (h : j.stopped = true) (task : Task) :
    ctx.perform j task = j := by
  rw [perform, if_pos h]

/-- A stopped journal stays as it is. -/
theorem performAll_of_stopped {j : Journal} (h : j.stopped = true) (stops : List Stop) :
    ctx.performAll j stops = j := by
  induction stops with
  | nil => rfl
  | cons s rest ih => rw [performAll_cons, ctx.perform_of_stopped h, ih]

/-- A task without verdict writes its events. -/
theorem perform_of_passed {j : Journal} (hj : j.stopped = false) {task : Task}
    (h : ctx.verdict task = none) : ctx.perform j task = j.notes (ctx.taskEvents task) := by
  rw [perform, hj, h]
  rfl

/-- A task with a verdict writes its events and stops the journal. -/
theorem perform_of_failed {j : Journal} (hj : j.stopped = false) {task : Task}
    {failure : Failure} (h : ctx.verdict task = some failure) :
    ctx.perform j task = (j.notes (ctx.taskEvents task)).fail task.span failure := by
  rw [perform, hj, h]
  rfl

/-- **All of these stops pass**: no task has a verdict. -/
def AllPass (stops : List Stop) : Prop := ∀ s ∈ stops, ctx.verdict s.task = none

/-- The journal goes on behind stops that pass. -/
theorem stopped_performAll_of_allPass {j : Journal} (hj : j.stopped = false) {stops : List Stop}
    (h : ctx.AllPass stops) : (ctx.performAll j stops).stopped = false := by
  induction stops generalizing j with
  | nil => exact hj
  | cons s rest ih =>
      rw [performAll_cons, ctx.perform_of_passed hj (h s List.mem_cons_self)]
      exact ih hj (fun t ht => h t (List.mem_cons_of_mem _ ht))

/-- The journal is stopped behind stops that do not all pass. -/
theorem stopped_performAll_of_not_allPass {j : Journal} (hj : j.stopped = false)
    {stops : List Stop} (h : ¬ ctx.AllPass stops) :
    (ctx.performAll j stops).stopped = true := by
  induction stops generalizing j with
  | nil => exact absurd (fun s hs => nomatch hs) h
  | cons s rest ih =>
      rw [performAll_cons]
      cases hs : ctx.verdict s.task with
      | some failure =>
          rw [ctx.perform_of_failed hj hs, ctx.performAll_of_stopped (Journal.stopped_fail ..)]
          exact Journal.stopped_fail ..
      | none =>
          rw [ctx.perform_of_passed hj hs]
          refine ih hj (fun hrest => h ?_)
          intro t ht
          rcases List.mem_cons.mp ht with rfl | hmem
          · exact hs
          · exact hrest t hmem

/-- **The failure that is recorded** is that of the first task with a verdict, with its span. -/
theorem failure_performAll {j : Journal} (hj : j.stopped = false) (stops : List Stop) :
    (ctx.performAll j stops).failure
      = stops.findSome? fun s =>
          (ctx.verdict s.task).map fun failure => (s.task.span, failure) := by
  induction stops generalizing j with
  | nil => exact Option.not_isSome_iff_eq_none.mp (Bool.not_eq_true _ ▸ hj)
  | cons s rest ih =>
      rw [performAll_cons, List.findSome?_cons]
      cases hs : ctx.verdict s.task with
      | none =>
          rw [ctx.perform_of_passed hj hs]
          exact ih hj
      | some failure =>
          rw [ctx.perform_of_failed hj hs, ctx.performAll_of_stopped (Journal.stopped_fail ..)]
          have hnone : j.failure = none :=
            Option.not_isSome_iff_eq_none.mp (Bool.not_eq_true _ ▸ hj)
          rw [Journal.fail, Journal.notes, hnone]
          rfl

/-! ## How far a run gets -/

/-- **`done` is how far a run gets** along stops: it holds at the eligible stops before the first
    failure, and at no eligible stop from there on. -/
def Reaches (done : Place → Bool) : List Stop → Prop
  | [] => True
  | s :: rest =>
    match ctx.verdict s.task with
    | none => (ctx.isEligible s.task = true → done s.place = true) ∧ Reaches done rest
    | some _ => ctx.Untouched done (s :: rest)

variable {ctx} {done : Place → Bool}

theorem Reaches.of_passed {s : Stop} {rest : List Stop} (h : ctx.Reaches done (s :: rest))
    (hs : ctx.verdict s.task = none) :
    (ctx.isEligible s.task = true → done s.place = true) ∧ ctx.Reaches done rest := by
  rwa [Reaches, hs] at h

theorem Reaches.of_failed {s : Stop} {rest : List Stop} (h : ctx.Reaches done (s :: rest))
    {failure : Failure} (hs : ctx.verdict s.task = some failure) :
    ctx.Untouched done (s :: rest) := by
  rwa [Reaches, hs] at h

/-- Nothing is done at stops that a run does not get past. -/
theorem Reaches.of_untouched_cons {s : Stop} {rest : List Stop} {failure : Failure}
    (hs : ctx.verdict s.task = some failure) (h : ctx.Untouched done (s :: rest)) :
    ctx.Reaches done (s :: rest) := by
  rw [Reaches, hs]
  exact h

/-- Stops of a child, seen from the child. -/
theorem Reaches.of_inChild {i : Nat} {stops : List Stop}
    (h : ctx.Reaches done (stops.map (Stop.inChild i))) :
    ctx.Reaches (fun p => done (i :: p)) stops := by
  induction stops with
  | nil => trivial
  | cons s rest ih =>
      cases hs : ctx.verdict s.task with
      | none =>
          obtain ⟨hhere, hrest⟩ := Reaches.of_passed (s := s.inChild i) h hs
          rw [Reaches, hs]
          exact ⟨hhere, ih hrest⟩
      | some failure =>
          refine Reaches.of_untouched_cons hs ?_
          exact Untouched.of_inChild (Reaches.of_failed (s := s.inChild i) h hs)

/-- Behind stops that all pass, a run gets as far along the later ones. -/
theorem Reaches.append_of_allPass {first second : List Stop}
    (h : ctx.Reaches done (first ++ second)) (hpass : ctx.AllPass first) :
    ctx.Reaches done first ∧ ctx.Reaches done second := by
  induction first with
  | nil => exact ⟨trivial, h⟩
  | cons s rest ih =>
      have hs := hpass s List.mem_cons_self
      obtain ⟨hhere, hrest⟩ := h.of_passed hs
      obtain ⟨h₁, h₂⟩ := ih hrest (fun t ht => hpass t (List.mem_cons_of_mem _ ht))
      rw [Reaches, hs]
      exact ⟨⟨hhere, h₁⟩, h₂⟩

/-- Behind stops that do not all pass, nothing is done. -/
theorem Reaches.append_of_not_allPass {first second : List Stop}
    (h : ctx.Reaches done (first ++ second)) (hpass : ¬ ctx.AllPass first) :
    ctx.Reaches done first ∧ ctx.Untouched done second := by
  induction first with
  | nil => exact absurd (fun s hs => nomatch hs) hpass
  | cons s rest ih =>
      cases hs : ctx.verdict s.task with
      | some failure =>
          have huntouched : ctx.Untouched done (s :: rest ++ second) := h.of_failed hs
          exact ⟨Reaches.of_untouched_cons hs huntouched.left, huntouched.right⟩
      | none =>
          rw [List.cons_append] at h
          obtain ⟨hhere, hrest⟩ := h.of_passed hs
          have hnot : ¬ ctx.AllPass rest := by
            intro hall
            refine hpass ?_
            intro t ht
            rcases List.mem_cons.mp ht with rfl | hmem
            · exact hs
            · exact hall t hmem
          obtain ⟨h₁, h₂⟩ := ih hrest hnot
          rw [Reaches, hs]
          exact ⟨⟨hhere, h₁⟩, h₂⟩

/-- A run that meets no failure gets everywhere. -/
theorem reaches_of_allPass {stops : List Stop} (hpass : ctx.AllPass stops)
    (hdone : ∀ s ∈ stops, ctx.isEligible s.task = true → done s.place = true) :
    ctx.Reaches done stops := by
  induction stops with
  | nil => trivial
  | cons s rest ih =>
      rw [Reaches, hpass s List.mem_cons_self]
      exact ⟨hdone s List.mem_cons_self,
        ih (fun t ht => hpass t (List.mem_cons_of_mem _ ht))
          (fun t ht => hdone t (List.mem_cons_of_mem _ ht))⟩

/-- A run gets up to the first failure. -/
theorem reaches_of_split {before after : List Stop} {s : Stop} {failure : Failure}
    (hpass : ctx.AllPass before) (hs : ctx.verdict s.task = some failure)
    (hdone : ∀ t ∈ before, ctx.isEligible t.task = true → done t.place = true)
    (huntouched : ctx.Untouched done (s :: after)) :
    ctx.Reaches done (before ++ s :: after) := by
  induction before with
  | nil => exact Reaches.of_untouched_cons hs huntouched
  | cons t rest ih =>
      rw [List.cons_append, Reaches, hpass t List.mem_cons_self]
      exact ⟨hdone t List.mem_cons_self,
        ih (fun u hu => hpass u (List.mem_cons_of_mem _ hu))
          (fun u hu => hdone u (List.mem_cons_of_mem _ hu))⟩

variable (ctx)

/-! ## One declaration -/

/-- A step of a run is followed by the next one, with the journal that it leaves. -/
theorem run_bind {α β : Type} (x : Run α) (f : α → Run β) (j : Journal) :
    (x >>= f).run j = (f (x.run j).1).run (x.run j).2 := rfl

theorem load_run (module : String) (j : Journal) :
    (ctx.load module).run j
      = (ctx.fetch module, j.notes [.reading module (ctx.pathOf module)]) := rfl

/-- **A job writes its events and comes to what it comes to alone.** -/
theorem define_run (job : Job) (j : Journal) :
    (ctx.define job.origin job.module job.shape).run j
      = (ctx.definitions job, j.notes (ctx.jobEvents job)) := by
  rw [define, run_bind, load_run, jobEvents, definitions]
  cases ctx.fetch job.module with
  | error failure => rfl
  | ok value =>
      dsimp only
      cases Definition.ofShape job.shape value job.module with
      | error failure => rfl
      | ok ds =>
          show (Except.ok ds, (j.notes _).notes [_]) = (Except.ok ds, j.notes ([_] ++ [_]))
          rw [Journal.notes_notes]

/-- A declarator that asks for nothing stays. -/
theorem settleDeclarators_of_idle (head : DeclarationHead) {d : Node}
    (h : ctx.job? (.declaration head) d = none) (rest : List Node) (j : Journal) :
    (ctx.settleDeclarators (d :: rest)).run j
      = (((ctx.settleDeclarators rest).run j).1.map ([d] ++ ·),
          ((ctx.settleDeclarators rest).run j).2) := by
  rw [job?, Option.map_eq_none_iff] at h
  rw [settleDeclarators, h]
  rfl

/-- A declarator with a job is defined first. -/
theorem settleDeclarators_of_job (head : DeclarationHead) {d : Node} {job : Job}
    (h : ctx.job? (.declaration head) d = some job) (rest : List Node) (j : Journal) :
    (ctx.settleDeclarators (d :: rest)).run j
      = match ctx.definitions job with
        | .error failure => (.error failure, j.notes (ctx.jobEvents job))
        | .ok ds =>
          (((ctx.settleDeclarators rest).run (j.notes (ctx.jobEvents job))).1.map
              (job.code ds ++ ·),
            ((ctx.settleDeclarators rest).run (j.notes (ctx.jobEvents job))).2) := by
  obtain ⟨⟨module, shape⟩, hrequired, rfl⟩ := Option.map_eq_some_iff.mp h
  rw [settleDeclarators, hrequired]
  dsimp only
  rw [run_bind, show (ctx.define .required module shape).run j = _
    from ctx.define_run ⟨.required, module, shape⟩ j]
  cases ctx.definitions ⟨.required, module, shape⟩ <;> rfl

/-- **What becomes of the declarators of a declaration**: all that can be are replaced, or there is
    a failure. -/
def declaratorsOf (head : DeclarationHead) (declarators : List Node) : Except Failure (List Node) :=
  match ctx.verdict (.declaration head declarators) with
  | some failure => .error failure
  | none =>
    .ok (declarators.flatMap fun d => (ctx.replacement? (.declaration head) d).getD [d])

/-- **The declarators of a declaration, settled first to last.** -/
theorem settleDeclarators_run (head : DeclarationHead) (declarators : List Node) (j : Journal) :
    (ctx.settleDeclarators declarators).run j
      = (ctx.declaratorsOf head declarators,
          j.notes (ctx.taskEvents (.declaration head declarators))) := by
  induction declarators generalizing j with
  | nil =>
      show (Except.ok [], j) = (Except.ok [], j.notes [])
      rw [Journal.notes_nil]
  | cons d rest ih =>
      rw [declaratorsOf, verdict, taskEvents, jobs, List.filterMap_cons, List.flatMap_cons,
        replacement?]
      cases hjob : ctx.job? (.declaration head) d with
      | none =>
          rw [ctx.settleDeclarators_of_idle head hjob, ih, declaratorsOf]
          show (_, j.notes (ctx.taskEvents _)) = (match ctx.verdict (.declaration head rest) with
            | some failure => _
            | none => _, _)
          cases ctx.verdict (.declaration head rest) <;> rfl
      | some job =>
          -- a failure here ends the trace and the replacing at once
          rw [ctx.settleDeclarators_of_job head hjob, ih, declaratorsOf]
          dsimp only
          rw [List.findSome?_cons, trace, fault?]
          cases hds : ctx.definitions job with
          | error failure =>
              dsimp only
              rw [List.append_nil]
          | ok ds =>
              dsimp only
              rw [← Journal.notes_notes]
              show _ = (match ctx.verdict (.declaration head rest) with
                | some failure => _
                | none => _, _)
              cases ctx.verdict (.declaration head rest) <;> rfl

/-- A declaration, settled with its declarators as they are. -/
theorem settleDeclaration_run (head : DeclarationHead) (declarators : List Node) {j : Journal}
    (hj : j.stopped = false) :
    (ctx.settleDeclaration head declarators).run j
      = (.node (.declaration head)
          (match ctx.declaratorsOf head declarators with
            | .ok replaced => replaced
            | .error _ => declarators),
        ctx.perform j (.declaration head declarators)) := by
  rw [settleDeclaration, run_bind, ctx.settleDeclarators_run head, declaratorsOf]
  cases h : ctx.verdict (.declaration head declarators) with
  | none =>
      rw [ctx.perform_of_passed hj h]
      rfl
  | some failure =>
      rw [ctx.perform_of_failed hj h]
      rfl

/-! ## One import -/

/-- An import that asks for nothing leaves the place to its item. -/
theorem settleImport_of_idle {decl : Import} (h : ctx.importJob? decl = none) (j : Journal) :
    (ctx.settleImport decl).run j = (.ok none, j.notes (ctx.taskEvents (.importing decl))) := by
  rw [settleImport, taskEvents, jobs, h]
  rw [importJob?] at h
  dsimp only
  cases haccepts : ctx.matcher.accepts decl.source with
  | false =>
      show (Except.ok none, j) = (Except.ok none, j.notes [])
      rw [Journal.notes_nil]
  | true =>
      cases hsupported : (Shape.ofImport decl).isSupported with
      | false => rfl
      | true =>
          rw [haccepts, hsupported] at h
          exact nomatch h

/-- An import with a job is defined. -/
theorem settleImport_of_job {decl : Import} {job : Job} (h : ctx.importJob? decl = some job)
    (j : Journal) :
    (ctx.settleImport decl).run j
      = ((ctx.definitions job).map fun ds => some (job.code ds),
          j.notes (ctx.taskEvents (.importing decl))) := by
  have hevents : ctx.taskEvents (.importing decl) = ctx.jobEvents job := by
    obtain ⟨haccepts, hsupported, -⟩ := ctx.importJob?_eq_some_iff.mp h
    rw [taskEvents, haccepts, hsupported, jobs, h]
    show ctx.jobEvents job ++ (match ctx.fault? job with
      | none => []
      | some _ => []) = ctx.jobEvents job
    cases ctx.fault? job <;> exact List.append_nil _
  obtain ⟨haccepts, hsupported, rfl⟩ := ctx.importJob?_eq_some_iff.mp h
  rw [hevents, settleImport]
  dsimp only
  rw [haccepts, hsupported]
  show StateT.run (ctx.define .imported decl.source (Shape.ofImport decl) >>= _) j = _
  rw [run_bind, show (ctx.define .imported decl.source (Shape.ofImport decl)).run j = _
    from ctx.define_run ⟨.imported, decl.source, Shape.ofImport decl⟩ j]
  rfl

/-- The verdict on an import is the fault of its only job. -/
theorem verdict_importing (decl : Import) :
    ctx.verdict (.importing decl) = (ctx.importJob? decl).bind ctx.fault? := by
  rw [verdict, jobs]
  cases ctx.importJob? decl with
  | none => rfl
  | some job =>
      rw [Option.toList_some, List.findSome?_cons, Option.bind_some]
      cases ctx.fault? job <;> rfl

/-- **An import among the items of a module**: it is replaced if it passes. -/
theorem settleItem_import {j : Journal} (hj : j.stopped = false) (decl : Import)
    (attributes : List Node) :
    (ctx.settleItem (.node (.importItem decl) attributes)).run j
      = ((ctx.replacement? .moduleBody (.node (.importItem decl) attributes)).getD
            [.node (.importItem decl) attributes],
          ctx.perform j (.importing decl)) := by
  -- the journal is not stopped, so all depends on what becomes of the import
  have hopen : (ctx.settleItem (.node (.importItem decl) attributes)).run j
      = match (ctx.settleImport decl).run j with
        | (.ok (some items), j') => (items, j')
        | (.ok none, j') => ([.node (.importItem decl) attributes], j')
        | (.error failure, j') =>
          ([.node (.importItem decl) attributes], j'.fail decl.span failure) := by
    rw [settleItem, run_bind]
    show StateT.run (if j.stopped then _ else _) j = _
    rw [hj]
    show StateT.run (ctx.settleImport decl >>= _) j = _
    rw [run_bind]
    rcases (ctx.settleImport decl).run j with ⟨failure | _ | items, j'⟩ <;> rfl
  have hverdict := ctx.verdict_importing decl
  rw [hopen, replacement?, job?]
  cases hjob : ctx.importJob? decl with
  | none =>
      rw [hjob] at hverdict
      rw [ctx.settleImport_of_idle hjob, ctx.perform_of_passed hj hverdict]
      rfl
  | some job =>
      rw [hjob, Option.bind_some, fault?] at hverdict
      rw [ctx.settleImport_of_job hjob]
      dsimp only
      cases hds : ctx.definitions job with
      | error failure =>
          rw [hds] at hverdict
          rw [ctx.perform_of_failed hj hverdict]
          rfl
      | ok ds =>
          rw [hds] at hverdict
          rw [ctx.perform_of_passed hj hverdict]
          rfl

/-- Items of a module that are no imports stay. -/
theorem settleItem_other {form : Form} (h : ∀ decl, form ≠ .importItem decl)
    (children : List Node) (j : Journal) :
    (ctx.settleItem (.node form children)).run j = ([.node form children], j) := by
  cases form with
  | importItem decl => exact absurd rfl (h decl)
  | _ => rfl

/-- With a stopped journal every item stays. -/
theorem settleItems_of_stopped {j : Journal} (hj : j.stopped = true) (items : List Node) :
    (ctx.settleItems items).run j = (items, j) := by
  induction items with
  | nil => rfl
  | cons item rest ih =>
      have hitem : (ctx.settleItem item).run j = ([item], j) := by
        obtain ⟨form, children⟩ := item
        cases form with
        | importItem decl =>
            show StateT.run (if j.stopped then _ else _) j = _
            rw [hj]
            rfl
        | _ => rfl
      rw [settleItems, run_bind, hitem, run_bind, ih]
      rfl

/-! ## Settling behind the children -/

/-- Where the root is done, every declarator that can be is replaced, and the image of one is
    replaced as the declarator itself. -/
theorem flatMap_imagesAt (head : DeclarationHead) {done : Place → Bool}
    (hroot : done [] = true) (declarators : List Node) (i : Nat) :
    ((ctx.imagesAt done i declarators).flatMap fun d =>
        (ctx.replacement? (.declaration head) d).getD [d])
      = ctx.inlineAllAt done (.declaration head) i declarators := by
  induction declarators generalizing i with
  | nil => rfl
  | cons d rest ih =>
      have hat : ctx.replacementAt? done (.declaration head) i d
          = ctx.replacement? (.declaration head) d := by
        rw [replacementAt?, show siteOf (.declaration head) i = [] from rfl, hroot]
        rfl
      rw [imagesAt_cons, List.flatMap_cons, ih (i + 1), inlineAllAt_cons, hat,
        ctx.replacement?_of_sketch_eq head (ctx.sketch_inlineAt d _)]

/-- The images of declarators have the jobs of the declarators, up to sketches. -/
theorem jobs_imagesAt (head : DeclarationHead) (done : Place → Bool) (declarators : List Node)
    (i : Nat) :
    (ctx.jobs (.declaration head (ctx.imagesAt done i declarators))).map Job.sketch
      = (ctx.jobs (.declaration head declarators)).map Job.sketch := by
  rw [jobs, jobs, List.map_filterMap, List.map_filterMap]
  induction declarators generalizing i with
  | nil => rfl
  | cons d rest ih =>
      rw [imagesAt_cons, List.filterMap_cons, List.filterMap_cons, ih (i + 1),
        ctx.job?_of_sketch_eq head (ctx.sketch_inlineAt d _)]

/-- Which job fails first is seen in the sketches. -/
theorem findSome?_fault?_sketch (jobs : List Job) :
    (jobs.map Job.sketch).findSome? ctx.fault? = jobs.findSome? ctx.fault? := by
  rw [List.findSome?_map, show ctx.fault? ∘ Job.sketch = ctx.fault? from
    funext ctx.fault?_sketch]

/-- The events of jobs are seen in the sketches. -/
theorem trace_sketch (jobs : List Job) : ctx.trace (jobs.map Job.sketch) = ctx.trace jobs := by
  induction jobs with
  | nil => rfl
  | cons job rest ih =>
      have hevents : ctx.jobEvents job.sketch = ctx.jobEvents job := by
        rw [jobEvents, jobEvents, ctx.definitions_sketch,
          show job.sketch.shape.kind = job.shape.kind from Shape.kind_sketch job.shape]
        rfl
      rw [List.map_cons, trace, trace, ih, hevents, ctx.fault?_sketch]

/-- The verdict on a declaration does not change while what is below it is replaced. -/
theorem verdict_imagesAt (head : DeclarationHead) (done : Place → Bool)
    (declarators : List Node) (i : Nat) :
    ctx.verdict (.declaration head (ctx.imagesAt done i declarators))
      = ctx.verdict (.declaration head declarators) := by
  rw [verdict, verdict, ← ctx.findSome?_fault?_sketch, ctx.jobs_imagesAt,
    ctx.findSome?_fault?_sketch]

/-- What a declaration does to a journal does not change either. -/
theorem perform_imagesAt (head : DeclarationHead) (done : Place → Bool)
    (declarators : List Node) (i : Nat) (j : Journal) :
    ctx.perform j (.declaration head (ctx.imagesAt done i declarators))
      = ctx.perform j (.declaration head declarators) := by
  rw [perform, perform, ctx.verdict_imagesAt, taskEvents, taskEvents, ← ctx.trace_sketch,
    ctx.jobs_imagesAt, ctx.trace_sketch]
  rfl

/-- **A declaration behind its children.** -/
theorem settleDeclaration_imagesAt (head : DeclarationHead) {done : Place → Bool}
    (declarators : List Node) {j : Journal} (hj : j.stopped = false)
    (h : ctx.Reaches done (Node.ownStops (.declaration head) declarators)) :
    (ctx.settleDeclaration head (ctx.imagesAt done 0 declarators)).run j
      = (.node (.declaration head) (ctx.inlineAllAt done (.declaration head) 0 declarators),
          ctx.performAll j (Node.ownStops (.declaration head) declarators)) := by
  rw [ctx.settleDeclaration_run head _ hj, declaratorsOf, ctx.verdict_imagesAt,
    ctx.perform_imagesAt]
  cases hverdict : ctx.verdict (.declaration head declarators) with
  | none =>
      have hroot : done [] = true := (h.of_passed hverdict).1 rfl
      dsimp only
      rw [ctx.flatMap_imagesAt head hroot]
      rfl
  | some failure =>
      -- the declarators that could be replaced before the failing one stay as well
      have huntouched := h.of_failed hverdict
      dsimp only
      rw [ctx.inlineAllAt_eq_imagesAt done (.declaration head) declarators 0
        (fun _ _ hk => ctx.replacementAt?_of_untouched huntouched hk)]
      rfl

/-- An import that is done is replaced if it can be. -/
theorem replacementAt?_import_of_done {done : Place → Bool} {i : Nat} {decl : Import}
    (attributes : List Node) (h : ctx.isEligible (.importing decl) = true → done [i] = true) :
    ctx.replacementAt? done .moduleBody i (.node (.importItem decl) attributes)
      = ctx.replacement? .moduleBody (.node (.importItem decl) attributes) := by
  rw [replacementAt?, siteOf]
  cases hjob : ctx.importJob? decl with
  | some job =>
      rw [h (by rw [isEligible, hjob]; rfl)]
      rfl
  | none =>
      rw [replacement?, job?, hjob]
      split <;> rfl

/-- An import with a verdict is not replaced. -/
theorem replacement?_import_of_failed {decl : Import} {failure : Failure}
    (h : ctx.verdict (.importing decl) = some failure) (attributes : List Node) :
    ctx.replacement? .moduleBody (.node (.importItem decl) attributes) = none := by
  rw [ctx.verdict_importing] at h
  obtain ⟨job, hjob, hfault⟩ := Option.bind_eq_some_iff.mp h
  rw [replacement?, job?, hjob]
  rw [fault?] at hfault
  dsimp only
  cases hds : ctx.definitions job with
  | error failure => rfl
  | ok ds =>
      rw [hds] at hfault
      cases hfault

/-- **The items of a module behind their children.** -/
theorem settleItems_imagesAt {done : Place → Bool} (items : List Node) (i : Nat) {j : Journal}
    (hj : j.stopped = false) (h : ctx.Reaches done (Node.importStops i items)) :
    (ctx.settleItems (ctx.imagesAt done i items)).run j
      = (ctx.inlineAllAt done .moduleBody i items,
          ctx.performAll j (Node.importStops i items)) := by
  induction items generalizing i j with
  | nil => rfl
  | cons item rest ih =>
      obtain ⟨form, children⟩ := item
      rw [imagesAt_cons, settleItems, run_bind, inlineAt_node]
      cases form with
      | importItem decl =>
          rw [ctx.settleItem_import hj]
          cases hverdict : ctx.verdict (.importing decl) with
          | none =>
              obtain ⟨hplace, hrest⟩ := Reaches.of_passed (s := ⟨[i], .importing decl⟩) h hverdict
              have hj' : (ctx.perform j (.importing decl)).stopped = false := by
                rw [ctx.perform_of_passed hj hverdict]
                exact hj
              rw [run_bind, ih (i + 1) hj' hrest, inlineAllAt_cons,
                ctx.replacementAt?_import_of_done children hplace]
              rfl
          | some failure =>
              -- this import stays, and the journal is stopped for all items behind it
              have huntouched := Reaches.of_failed (s := ⟨[i], .importing decl⟩) h hverdict
              have hj' : (ctx.perform j (.importing decl)).stopped = true := by
                rw [ctx.perform_of_failed hj hverdict]
                exact Journal.stopped_fail ..
              rw [run_bind, ctx.settleItems_of_stopped hj',
                ctx.replacement?_import_of_failed hverdict,
                ctx.inlineAllAt_eq_imagesAt done .moduleBody _ i
                  (fun _ _ hk => ctx.replacementAt?_item_of_untouched huntouched hk)]
              show _ = (_, ctx.performAll (ctx.perform j (.importing decl)) _)
              rw [ctx.performAll_of_stopped hj']
              rfl
      | _ =>
          rw [ctx.settleItem_other]
          · rw [run_bind, ih (i + 1) hj h, inlineAllAt_cons, replacementAt?, replacement?]
            split <;> rfl
          · intro decl heq
            cases heq

/-! ## The whole walk -/

/-- With a stopped journal a node stays as it is. -/
theorem settle_of_stopped {j : Journal} (hj : j.stopped = true) (form : Form)
    (children : List Node) : (ctx.settle form children).run j = (.node form children, j) := by
  show StateT.run (if j.stopped then _ else _) j = _
  rw [hj]
  rfl

/-- **A node behind its children**, with a journal that goes on. -/
theorem settle_imagesAt {done : Place → Bool} (form : Form) (children : List Node) {j : Journal}
    (hj : j.stopped = false) (h : ctx.Reaches done (Node.ownStops form children)) :
    (ctx.settle form (ctx.imagesAt done 0 children)).run j
      = (.node form (ctx.inlineAllAt done form 0 children),
          ctx.performAll j (Node.ownStops form children)) := by
  show StateT.run (if j.stopped then _ else _) j = _
  rw [hj]
  cases form with
  | declaration head => exact ctx.settleDeclaration_imagesAt head children hj h
  | moduleBody =>
      show StateT.run (ctx.settleItems (ctx.imagesAt done 0 children) >>= _) j = _
      rw [run_bind, ctx.settleItems_imagesAt children 0 hj h]
      rfl
  | _ =>
      rw [ctx.inlineAllAt_of_closed rfl]
      rfl

mutual

/-- With a stopped journal a tree stays as it is. -/
theorem visit_of_stopped {j : Journal} (hj : j.stopped = true) :
    ∀ n : Node, (n.visit ctx.settle).run j = (n, j)
  | .node form children => by
      rw [Node.visit, run_bind, visitAll_of_stopped hj children, ctx.settle_of_stopped hj]

theorem visitAll_of_stopped {j : Journal} (hj : j.stopped = true) :
    ∀ ns : List Node, (Node.visitAll ctx.settle ns).run j = (ns, j)
  | [] => rfl
  | n :: rest => by
      rw [Node.visitAll, run_bind, visit_of_stopped hj n, run_bind, visitAll_of_stopped hj rest]
      rfl

end

mutual

/-- **The walk of a tree**: it leaves the tree with the tasks replaced that it gets past, and the
    journal of the stops. -/
theorem visit_run :
    ∀ (n : Node) (done : Place → Bool) (j : Journal), j.stopped = false →
      ctx.Reaches done n.stops →
      (n.visit ctx.settle).run j = (ctx.inlineAt done n, ctx.performAll j n.stops)
  | .node form children, done, j, hj, h => by
      rw [Node.stops_node] at h
      rw [Node.visit, run_bind, Node.stops_node, ctx.performAll_append, inlineAt_node]
      by_cases hpass : ctx.AllPass (Node.stopsAll 0 children)
      · obtain ⟨hbelow, hown⟩ := h.append_of_allPass hpass
        rw [visitAll_run children 0 done j hj hbelow]
        exact ctx.settle_imagesAt form children (ctx.stopped_performAll_of_allPass hj hpass) hown
      · -- the failure is below, so nothing is done here
        obtain ⟨hbelow, hown⟩ := h.append_of_not_allPass hpass
        have hj' := ctx.stopped_performAll_of_not_allPass hj hpass
        rw [visitAll_run children 0 done j hj hbelow, ctx.settle_of_stopped hj',
          ctx.performAll_of_stopped hj', ctx.inlineAllAt_eq_imagesAt done form children 0
            (fun _ _ hk => ctx.replacementAt?_of_untouched hown hk)]

/-- The walk of children, from number `i` on. -/
theorem visitAll_run :
    ∀ (ns : List Node) (i : Nat) (done : Place → Bool) (j : Journal), j.stopped = false →
      ctx.Reaches done (Node.stopsAll i ns) →
      (Node.visitAll ctx.settle ns).run j
        = (ctx.imagesAt done i ns, ctx.performAll j (Node.stopsAll i ns))
  | [], _, _, _, _, _ => rfl
  | n :: rest, i, done, j, hj, h => by
      rw [Node.stopsAll_cons] at h
      rw [Node.visitAll, run_bind, run_bind, Node.stopsAll_cons, ctx.performAll_append,
        ctx.performAll_inChild, imagesAt_cons]
      by_cases hpass : ctx.AllPass (n.stops.map (Stop.inChild i))
      · obtain ⟨hhere, hrest⟩ := h.append_of_allPass hpass
        have hj' : (ctx.performAll j n.stops).stopped = false := by
          rw [← ctx.performAll_inChild j i]
          exact ctx.stopped_performAll_of_allPass hj hpass
        rw [visit_run n _ j hj hhere.of_inChild, visitAll_run rest (i + 1) done _ hj' hrest]
        rfl
      · -- the failure is in this child, so the later ones stay as they are
        obtain ⟨hhere, hrest⟩ := h.append_of_not_allPass hpass
        have hj' : (ctx.performAll j n.stops).stopped = true := by
          rw [← ctx.performAll_inChild j i]
          exact ctx.stopped_performAll_of_not_allPass hj hpass
        rw [visit_run n _ j hj hhere.of_inChild, ctx.visitAll_of_stopped hj' rest,
          ctx.performAll_of_stopped hj', ctx.imagesAt_of_untouched rest (i + 1) done hrest]
        rfl

end

/-- **A run is its stops, one after the other.** -/
theorem run_eq {done : Place → Bool} {program : Node} (h : ctx.Reaches done program.stops) :
    ctx.run program
      = (ctx.inlineAt done program, ctx.performAll .empty program.stops) :=
  ctx.visit_run program done .empty rfl h

end Context

end Inlay
