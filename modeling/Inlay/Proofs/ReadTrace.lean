import Inlay.Proofs.Outcome

/-!
# Which modules a run reads

Every load writes an event with the module and its path, so the journal of a run tells **what was
read, in order**. Here it is compared with the jobs of the program, listed in the order of the walk
on the tree as it is given: a run begins them one by one and lets go of the rest behind the first
one that fails. Nothing is remembered between jobs, so a module that is asked for twice is read
twice.

* `Journal.reads`: the reads in a journal.
* `Context.jobOrder`: the jobs of a program in the order of the walk; `mem_jobOrder_iff` says which
  they are.
* `Context.begun`: the jobs up to the first failing one, and that one too.
* `view_perform`, `view_performAll`, `view_run`: what a view of events shows of one task, of all of
  them and of a whole run, if all that it sees is what jobs write.
* `run_reads_begun_jobs`: the reads of a whole run.
-/

namespace Inlay

open Code

/-! ## Reads in a journal -/

/-- The module and the path that an event reads. -/
def Event.read? : Event → Option (String × String)
  | .reading module path => some (module, path)
  | _ => none

/-- **The reads of a journal**, each with its module and its path, in order. -/
def Journal.reads (j : Journal) : List (String × String) := j.events.filterMap Event.read?

namespace Context

variable (ctx : Context)

/-! ## Jobs that are begun -/

/-- **A job passes** if its module loads and its shape can take the data. -/
def passes (job : Job) : Bool := (ctx.fault? job).isNone

/-- **The jobs that are begun**, of jobs done one after the other: those before the first that does
    not pass, and that one too. -/
def begun (jobs : List Job) : List Job :=
  jobs.takeWhile ctx.passes ++ (jobs.dropWhile ctx.passes).take 1

theorem begun_cons_of_passes {job : Job} (h : ctx.passes job = true) (rest : List Job) :
    ctx.begun (job :: rest) = job :: ctx.begun rest := by
  simp only [begun, List.takeWhile_cons, List.dropWhile_cons, h, if_true, List.cons_append]

theorem begun_cons_of_fails {job : Job} (h : ctx.passes job = false) (rest : List Job) :
    ctx.begun (job :: rest) = [job] := by
  simp [begun, h]

/-- Behind jobs that all pass, the later ones are begun. -/
theorem begun_append_of_pass {first : List Job} (h : ∀ job ∈ first, ctx.passes job = true)
    (second : List Job) : ctx.begun (first ++ second) = first ++ ctx.begun second := by
  induction first with
  | nil => rfl
  | cons job rest ih =>
      have hjob : ctx.passes job = true := h job List.mem_cons_self
      rw [List.cons_append, ctx.begun_cons_of_passes hjob,
        ih (fun other hother => h other (List.mem_cons_of_mem _ hother)), List.cons_append]

/-- Jobs that all pass are all begun. -/
theorem begun_of_pass {jobs : List Job} (h : ∀ job ∈ jobs, ctx.passes job = true) :
    ctx.begun jobs = jobs := by
  have happend := ctx.begun_append_of_pass h []
  rwa [List.append_nil, show ctx.begun [] = [] from rfl, List.append_nil] at happend

/-- Behind jobs that do not all pass, nothing more is begun. -/
theorem begun_append_of_fail {first : List Job} {job : Job} (hmem : job ∈ first)
    (hfails : ctx.passes job = false) (second : List Job) :
    ctx.begun (first ++ second) = ctx.begun first := by
  induction first with
  | nil => exact nomatch hmem
  | cons head rest ih =>
      rw [List.cons_append]
      by_cases hhead : ctx.passes head = true
      · -- the job that fails is not the first one, so it is further behind
        have hrest : job ∈ rest := by
          rcases List.mem_cons.mp hmem with rfl | hrest
          · rw [hfails] at hhead
            exact nomatch hhead
          · exact hrest
        rw [ctx.begun_cons_of_passes hhead, ctx.begun_cons_of_passes hhead, ih hrest]
      · rw [Bool.not_eq_true] at hhead
        rw [ctx.begun_cons_of_fails hhead, ctx.begun_cons_of_fails hhead]

/-- A task without verdict has only jobs that pass. -/
theorem passes_of_verdict_eq_none {task : Task} (h : ctx.verdict task = none) :
    ∀ job ∈ ctx.jobs task, ctx.passes job = true := by
  intro job hjob
  rw [passes, Option.isNone_iff_eq_none]
  exact List.findSome?_eq_none_iff.mp h job hjob

/-- Where all stops pass, all of their jobs do. -/
theorem passes_of_allPass {stops : List Stop} (h : ctx.AllPass stops) :
    ∀ job ∈ stops.flatMap fun s => ctx.jobs s.task, ctx.passes job = true := by
  intro job hjob
  obtain ⟨s, hs, hmem⟩ := List.mem_flatMap.mp hjob
  exact ctx.passes_of_verdict_eq_none (h s hs) job hmem

/-- A task with a verdict has a job that does not pass. -/
theorem exists_fails_of_verdict {task : Task} {failure : Failure}
    (h : ctx.verdict task = some failure) :
    ∃ job ∈ ctx.jobs task, ctx.passes job = false := by
  obtain ⟨job, hjob, hfault⟩ := List.exists_of_findSome?_eq_some h
  exact ⟨job, hjob, by rw [passes, hfault]; rfl⟩

/-! ## Views of a journal -/

section

variable {α : Type} (view : Event → Option α)

/-- **A view that sees only what jobs write**, neither imports that are passed over nor failures. -/
structure SeesJobs : Prop where
  passedOver : ∀ module, view (.passedOver module) = none
  aborted : ∀ failure, view (.aborted failure) = none

/-- What a view shows of a job. -/
def shown (job : Job) : List α := (ctx.jobEvents job).filterMap view

/-- Jobs done one after the other show themselves as far as they are begun. -/
theorem view_trace (jobs : List Job) :
    (ctx.trace jobs).filterMap view = (ctx.begun jobs).flatMap (ctx.shown view) := by
  induction jobs with
  | nil => rfl
  | cons job rest ih =>
      rw [trace, List.filterMap_append]
      cases hfault : ctx.fault? job with
      | none =>
          have hpasses : ctx.passes job = true := by rw [passes, hfault]; rfl
          rw [ctx.begun_cons_of_passes hpasses, List.flatMap_cons, ← ih]
          rfl
      | some failure =>
          have hfails : ctx.passes job = false := by rw [passes, hfault]; rfl
          rw [ctx.begun_cons_of_fails hfails]
          rfl

variable {view} (hview : SeesJobs view)

include hview

/-- An import that is passed over asks for nothing, and shows nothing. -/
theorem view_taskEvents (task : Task) :
    (ctx.taskEvents task).filterMap view
      = (ctx.begun (ctx.jobs task)).flatMap (ctx.shown view) := by
  cases task with
  | declaration head declarators => exact ctx.view_trace view _
  | importing decl =>
      rw [taskEvents]
      by_cases hpassed : (ctx.matcher.accepts decl.source && !(Shape.ofImport decl).isSupported)
          = true
      · have hjob : ctx.importJob? decl = none := by
          rw [Bool.and_eq_true, Bool.not_eq_true'] at hpassed
          rw [importJob?, hpassed.2, Bool.and_false]
          rfl
        rw [if_pos hpassed, jobs, hjob, List.filterMap_cons, hview.passedOver]
        rfl
      · rw [if_neg hpassed]
        exact ctx.view_trace view _

/-- **What performing one task shows**, with a journal that goes on. -/
theorem view_perform {j : Journal} (hj : j.stopped = false) (task : Task) :
    (ctx.perform j task).events.filterMap view
      = j.events.filterMap view ++ (ctx.begun (ctx.jobs task)).flatMap (ctx.shown view) := by
  have hnotes : (j.notes (ctx.taskEvents task)).events.filterMap view
      = j.events.filterMap view ++ (ctx.begun (ctx.jobs task)).flatMap (ctx.shown view) := by
    rw [Journal.notes, List.filterMap_append, ctx.view_taskEvents hview]
  cases hverdict : ctx.verdict task with
  | none => rw [ctx.perform_of_passed hj hverdict, hnotes]
  | some failure =>
      rw [ctx.perform_of_failed hj hverdict, ← hnotes, Journal.fail, Journal.note,
        List.filterMap_append, List.filterMap_cons, hview.aborted]
      exact List.append_nil _

/-- **What performing tasks one after the other shows**: their jobs, as far as they are begun. -/
theorem view_performAll {j : Journal} (hj : j.stopped = false) (stops : List Stop) :
    (ctx.performAll j stops).events.filterMap view
      = j.events.filterMap view
        ++ (ctx.begun (stops.flatMap fun s => ctx.jobs s.task)).flatMap (ctx.shown view) := by
  induction stops generalizing j with
  | nil => exact (List.append_nil _).symm
  | cons s rest ih =>
      rw [performAll_cons, List.flatMap_cons]
      cases hverdict : ctx.verdict s.task with
      | none =>
          have hpass := ctx.passes_of_verdict_eq_none hverdict
          have hj' : (ctx.perform j s.task).stopped = false := by
            rw [ctx.perform_of_passed hj hverdict]
            exact hj
          rw [ih hj', ctx.view_perform hview hj, ctx.begun_of_pass hpass,
            ctx.begun_append_of_pass hpass, List.flatMap_append, List.append_assoc]
      | some failure =>
          -- the journal is stopped behind this task, and the later jobs are not begun
          obtain ⟨job, hjob, hfails⟩ := ctx.exists_fails_of_verdict hverdict
          have hj' : (ctx.perform j s.task).stopped = true := by
            rw [ctx.perform_of_failed hj hverdict]
            exact Journal.stopped_fail ..
          rw [ctx.performAll_of_stopped hj', ctx.view_perform hview hj,
            ctx.begun_append_of_fail hjob hfails]

end

/-! ## Reads of a run -/

/-- **The jobs of a program**, in the order of the walk: those of a declaration from its first
    declarator to its last and behind everything nested in it, those of the imports of a module
    body in the order of its items and behind everything nested in any of them. -/
def jobOrder (program : Node) : List Job := program.stops.flatMap fun s => ctx.jobs s.task

/-- The jobs of a program are what its declarations and imports ask for. -/
theorem mem_jobOrder_iff {program : Node} {job : Job} :
    job ∈ ctx.jobOrder program ↔ ∃ task, program.Holds task ∧ ctx.Asks task job := by
  rw [jobOrder, List.mem_flatMap]
  constructor
  · rintro ⟨s, hs, hjob⟩
    exact ⟨s.task, Node.exists_stop_iff_holds.mp ⟨s, hs, rfl⟩, ctx.mem_jobs_iff.mp hjob⟩
  · rintro ⟨task, hholds, hasks⟩
    obtain ⟨s, hs, rfl⟩ := Node.exists_stop_iff_holds.mpr hholds
    exact ⟨s, hs, ctx.mem_jobs_iff.mpr hasks⟩

/-- The job of a child of any node of a program is one of its jobs. -/
theorem mem_jobOrder_of_within {program : Node} {form : Form} {children : List Node}
    {child : Node} {job : Job} (hwithin : Node.Within (.node form children) program)
    (hchild : child ∈ children) (hjob : ctx.job? form child = some job) :
    job ∈ ctx.jobOrder program := by
  -- such a child is a declarator of a declaration, or an import of a module body
  refine ctx.mem_jobOrder_iff.mpr ?_
  cases form with
  | declaration head =>
      exact ⟨_, .declaration hwithin,
        ctx.mem_jobs_iff.mp (List.mem_filterMap.mpr ⟨child, hchild, hjob⟩)⟩
  | moduleBody =>
      obtain ⟨childForm, attributes⟩ := child
      cases childForm with
      | importItem decl =>
          exact ⟨_, .importing hwithin hchild, ctx.mem_jobs_iff.mp (Option.mem_toList.mpr hjob)⟩
      | _ => exact nomatch hjob
  | _ => exact nomatch hjob

/-- **What a view shows of a run**: the jobs of the program, as far as they are begun. -/
theorem view_run {α : Type} {view : Event → Option α} (hview : SeesJobs view) (program : Node) :
    (ctx.run program).2.events.filterMap view
      = (ctx.begun (ctx.jobOrder program)).flatMap (ctx.shown view) := by
  rw [ctx.journal_run, ctx.view_performAll hview rfl]
  rfl

/-- What a job reads: its module, at its path. -/
def readOf (job : Job) : String × String := (job.module, ctx.pathOf job.module)

/-- A job reads its module, once, whatever comes of it. -/
theorem shown_read? (job : Job) : ctx.shown Event.read? job = [ctx.readOf job] := by
  rw [shown, jobEvents]
  cases ctx.definitions job <;> rfl

/-- The reads of a run are its begun jobs. -/
theorem reads_run (program : Node) :
    (ctx.run program).2.reads = (ctx.begun (ctx.jobOrder program)).map ctx.readOf := by
  rw [Journal.reads, ctx.view_run ⟨fun _ => rfl, fun _ => rfl⟩, List.map_eq_flatMap]
  exact List.flatMap_congr (fun job _ => ctx.shown_read? job)

/-- **What a run reads**: the modules of the jobs of the program, in the order of the walk, one read
    for each job, up to the first job that does not pass and with it. The jobs are exactly what the
    declarations and imports of the program ask for, so nothing else is ever read. -/
theorem run_reads_begun_jobs (program : Node) :
    (ctx.run program).2.reads
      = ((ctx.jobOrder program).takeWhile ctx.passes
          ++ ((ctx.jobOrder program).dropWhile ctx.passes).take 1).map
            (fun job => (job.module, ctx.pathOf job.module)) ∧
    ∀ job, job ∈ ctx.jobOrder program ↔ ∃ task, program.Holds task ∧ ctx.Asks task job :=
  ⟨ctx.reads_run program, fun _ => ctx.mem_jobOrder_iff⟩

end Context

end Inlay
