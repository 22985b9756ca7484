import Inlay.Proofs.Walk

/-!
# What a run comes to

The two ways a run can end. It **succeeds** if every job of the program can be done alone, and then
the tree that it leaves is the one in which every job is done, whatever the order. It **fails** at
the first stop with a job that cannot be done: the stops before it are replaced, that stop and all
later ones are not, and its failure is what the journal keeps.

* `Context.visitOrder`: the declarations and eligible imports of a program, in the order of a run.
* `journal_run`: the journal of a run, whichever way it ends.
* `run_succeeds_iff_each_job_does`: when a run succeeds, and the tree it then leaves.
* `run_breaks_at_first_failure`: the failure of a run that does not, and its tree.
-/

namespace Inlay

open Code

/-- The places of stops, as a test. -/
def placesOf (stops : List Stop) (p : Place) : Bool := decide (p ∈ stops.map Stop.place)

theorem placesOf_of_mem {stops : List Stop} {s : Stop} (h : s ∈ stops) :
    placesOf stops s.place = true :=
  decide_eq_true (List.mem_map_of_mem h)

theorem placesOf_eq_false {stops : List Stop} {p : Place} (h : p ∉ stops.map Stop.place) :
    placesOf stops p = false :=
  decide_eq_false h

/-- A journal has a good outcome if it keeps no failure. -/
theorem Journal.outcome_eq_ok_iff (j : Journal) : j.outcome = .ok () ↔ j.failure = none := by
  rw [outcome]
  cases j.failure with
  | none => simp
  | some failure => simp

namespace Context

variable (ctx : Context)

/-- **The declarations and eligible imports of a program**, in the order in which a run comes to
    them: a declaration behind everything nested in it, the imports of a module body behind
    everything nested in any of its items. -/
def visitOrder (program : Node) : List Stop :=
  program.stops.filter fun s => ctx.isEligible s.task

/-! ## Which way a run ends -/

/-- A task that is not eligible has no jobs. -/
theorem jobs_of_not_eligible {task : Task} (h : ctx.isEligible task = false) :
    ctx.jobs task = [] := by
  cases task with
  | declaration head declarators => exact nomatch h
  | importing decl =>
      rw [isEligible, Option.isSome_eq_false_iff, Option.isNone_iff_eq_none] at h
      rw [jobs, h]
      rfl

/-- A task that is not eligible has no job that could fail. -/
theorem verdict_eq_none_of_not_eligible {task : Task} (h : ctx.isEligible task = false) :
    ctx.verdict task = none := by
  rw [verdict, ctx.jobs_of_not_eligible h]
  rfl

/-- Stops do not all pass if there is a first one with a verdict. -/
theorem exists_split_of_not_allPass {stops : List Stop} (h : ¬ ctx.AllPass stops) :
    ∃ before s after failure, stops = before ++ s :: after ∧ ctx.AllPass before ∧
      ctx.verdict s.task = some failure := by
  cases hfind : stops.findSome? fun s => ctx.verdict s.task with
  | none => exact absurd (List.findSome?_eq_none_iff.mp hfind) h
  | some failure =>
      obtain ⟨before, s, after, hsplit, hs, hpass⟩ := List.findSome?_eq_some_iff.mp hfind
      exact ⟨before, s, after, failure, hsplit, hpass, hs⟩

/-- A run whose stops all pass does every job. -/
theorem run_of_allPass {program : Node} (h : ctx.AllPass program.stops) :
    ctx.run program = (ctx.inlined program, ctx.performAll .empty program.stops) := by
  have hreaches : ctx.Reaches (fun _ => true) program.stops :=
    reaches_of_allPass h (fun _ _ _ => rfl)
  rw [ctx.run_eq hreaches, ctx.inlineAt_all]

/-- What is listed behind a stop stands at no place that is listed before it. -/
theorem place_not_mem_before {program : Node} {before after : List Stop} {s t : Stop}
    (hsplit : program.stops = before ++ s :: after) (ht : t ∈ s :: after) :
    t.place ∉ before.map Stop.place := by
  have hnodup := program.nodup_places
  rw [hsplit, List.map_append, List.nodup_append] at hnodup
  intro hmem
  exact hnodup.2.2 t.place hmem t.place (List.mem_map_of_mem ht) rfl

/-- A run with a failing stop replaces what comes before the first one. -/
theorem run_of_split {program : Node} {before after : List Stop} {s : Stop} {failure : Failure}
    (hsplit : program.stops = before ++ s :: after) (hpass : ctx.AllPass before)
    (hs : ctx.verdict s.task = some failure) :
    ctx.run program
      = (ctx.inlineAt (placesOf (before.filter fun t => ctx.isEligible t.task)) program,
          ctx.performAll .empty program.stops) := by
  refine ctx.run_eq ?_
  rw [hsplit]
  refine reaches_of_split hpass hs ?_ ?_
  · intro t ht heligible
    exact placesOf_of_mem (List.mem_filter.mpr ⟨ht, heligible⟩)
  · -- a later stop is told apart from the earlier ones by its place
    intro t ht _
    refine placesOf_eq_false (fun hmem => ?_)
    obtain ⟨u, hu, hplace⟩ := List.mem_map.mp hmem
    refine place_not_mem_before hsplit ht ?_
    exact hplace ▸ List.mem_map_of_mem (List.mem_of_mem_filter hu)

/-- **The journal of a run** is that of its stops, whichever way it ends. -/
theorem journal_run (program : Node) :
    (ctx.run program).2 = ctx.performAll .empty program.stops := by
  by_cases hpass : ctx.AllPass program.stops
  · rw [ctx.run_of_allPass hpass]
  · obtain ⟨before, s, after, failure, hsplit, hbefore, hs⟩ :=
      ctx.exists_split_of_not_allPass hpass
    rw [ctx.run_of_split hsplit hbefore hs]

/-- A run succeeds if its stops all pass. -/
theorem outcome_run_eq_ok_iff (program : Node) :
    (ctx.run program).2.outcome = .ok () ↔ ctx.AllPass program.stops := by
  rw [Journal.outcome_eq_ok_iff, ctx.journal_run, ctx.failure_performAll rfl,
    List.findSome?_eq_none_iff]
  constructor
  · intro h s hs
    exact Option.map_eq_none_iff.mp (h s hs)
  · intro h s hs
    exact Option.map_eq_none_iff.mpr (h s hs)

/-- The stops of a program all pass if each module that is asked for loads and fits. -/
theorem allPass_iff (program : Node) :
    ctx.AllPass program.stops ↔
      ∀ task job, program.Holds task → ctx.Asks task job →
        ∃ value ds, ctx.fetch job.module = .ok value ∧
          Definition.ofShape job.shape value job.module = .ok ds := by
  constructor
  · intro h task job hholds hasks
    obtain ⟨s, hs, rfl⟩ := Node.exists_stop_iff_holds.mpr hholds
    obtain ⟨ds, hds⟩ :=
      ctx.verdict_eq_none_iff.mp (h s hs) job (ctx.mem_jobs_iff.mpr hasks)
    obtain ⟨value, hvalue, hshape⟩ := ctx.definitions_eq_ok_iff.mp hds
    exact ⟨value, ds, hvalue, hshape⟩
  · intro h s hs
    rw [ctx.verdict_eq_none_iff]
    intro job hjob
    obtain ⟨value, ds, hvalue, hshape⟩ :=
      h s.task job (Node.exists_stop_iff_holds.mp ⟨s, hs, rfl⟩) (ctx.mem_jobs_iff.mp hjob)
    exact ⟨ds, ctx.definitions_eq_ok_iff.mpr ⟨value, hvalue, hshape⟩⟩

/-- **When a run succeeds, and what it leaves.** It succeeds if every module that the program asks
    for anywhere loads and fits the shape it is asked in, each taken alone. The tree is then the one
    in which every declarator and every import that asks is replaced where it stands. -/
theorem run_succeeds_iff_each_job_does (program : Node) :
    ((ctx.run program).2.outcome = .ok () ↔
      ∀ task job, program.Holds task → ctx.Asks task job →
        ∃ value ds, ctx.fetch job.module = .ok value ∧
          Definition.ofShape job.shape value job.module = .ok ds) ∧
    ((ctx.run program).2.outcome = .ok () → (ctx.run program).1 = ctx.inlined program) := by
  refine ⟨(ctx.outcome_run_eq_ok_iff program).trans (ctx.allPass_iff program), ?_⟩
  intro hok
  rw [ctx.run_of_allPass ((ctx.outcome_run_eq_ok_iff program).mp hok)]

/-! ## The first failure -/

/-- A task with a verdict has a first job that fails, and the jobs before it can be done. -/
theorem exists_job_of_verdict {task : Task} {failure : Failure}
    (h : ctx.verdict task = some failure) :
    ∃ earlier job later, ctx.jobs task = earlier ++ job :: later ∧
      (∀ other ∈ earlier, ∃ ds, ctx.definitions other = .ok ds) ∧
      ctx.definitions job = .error failure := by
  obtain ⟨earlier, job, later, hjobs, hfault, hearlier⟩ := List.findSome?_eq_some_iff.mp h
  refine ⟨earlier, job, later, hjobs, ?_, ?_⟩
  · intro other hother
    exact ctx.fault?_eq_none_iff.mp (hearlier other hother)
  · rw [fault?] at hfault
    cases hds : ctx.definitions job with
    | error other =>
        rw [hds] at hfault
        rw [Option.some.inj hfault]
    | ok ds =>
        rw [hds] at hfault
        cases hfault

/-- **A program breaks at a stop**: every job of the stops before it can be done, and of its own
    jobs, first to last, one cannot while those before that one can. -/
structure BreaksAt (program : Node) (before : List Stop) (failing : Stop) (after : List Stop)
    (failure : Failure) : Prop where
  order : ctx.visitOrder program = before ++ failing :: after
  passed : ∀ s ∈ before, ∀ job ∈ ctx.jobs s.task, ∃ ds, ctx.definitions job = .ok ds
  fault : ∃ earlier job later, ctx.jobs failing.task = earlier ++ job :: later ∧
    (∀ other ∈ earlier, ∃ ds, ctx.definitions other = .ok ds) ∧
    ctx.definitions job = .error failure

/-- The first stop with a verdict is where the program breaks. -/
theorem breaksAt_of_split {program : Node} {before after : List Stop} {s : Stop}
    {failure : Failure} (hsplit : program.stops = before ++ s :: after)
    (hpass : ctx.AllPass before) (hs : ctx.verdict s.task = some failure) :
    ctx.BreaksAt program (before.filter fun t => ctx.isEligible t.task) s
      (after.filter fun t => ctx.isEligible t.task) failure where
  order := by
    have heligible : ctx.isEligible s.task = true := by
      cases h : ctx.isEligible s.task with
      | true => rfl
      | false =>
          rw [ctx.verdict_eq_none_of_not_eligible h] at hs
          exact nomatch hs
    rw [visitOrder, hsplit, List.filter_append, List.filter_cons, heligible]
    rfl
  passed := by
    intro t ht
    exact ctx.verdict_eq_none_iff.mp (hpass t (List.mem_of_mem_filter ht))
  fault := ctx.exists_job_of_verdict hs

/-- **Where a run fails, and what it leaves.** The program breaks at a stop, and the journal keeps
    why, with the span of that stop. In the tree that is left, the stops before it are replaced.
    That stop keeps all its declarators, or its import, and so does every later one: no place of
    theirs is among the places that are replaced. -/
theorem run_breaks_at_first_failure (program : Node)
    (h : (ctx.run program).2.outcome ≠ .ok ()) :
    ∃ before failing after failure, ctx.BreaksAt program before failing after failure ∧
      (ctx.run program).2.failure = some (failing.task.span, failure) ∧
      (ctx.run program).1 = ctx.inlineAt (placesOf before) program ∧
      ∀ s ∈ failing :: after, placesOf before s.place = false := by
  obtain ⟨before, failing, after, failure, hsplit, hpass, hfailing⟩ :=
    ctx.exists_split_of_not_allPass (mt (ctx.outcome_run_eq_ok_iff program).mpr h)
  refine ⟨before.filter fun t => ctx.isEligible t.task, failing,
    after.filter fun t => ctx.isEligible t.task, failure,
    ctx.breaksAt_of_split hsplit hpass hfailing, ?_, ?_, ?_⟩
  · rw [ctx.journal_run, ctx.failure_performAll rfl]
    refine List.findSome?_eq_some_iff.mpr ⟨before, failing, after, hsplit, ?_, ?_⟩
    · rw [hfailing, Option.map_some]
    · intro t ht
      rw [hpass t ht, Option.map_none]
  · rw [ctx.run_of_split hsplit hpass hfailing]
  · intro t ht
    have hlisted : t ∈ failing :: after := by
      rcases List.mem_cons.mp ht with rfl | hafter
      · exact List.mem_cons_self
      · exact List.mem_cons_of_mem _ (List.mem_of_mem_filter hafter)
    refine placesOf_eq_false (fun hmem => ?_)
    obtain ⟨u, hu, hplace⟩ := List.mem_map.mp hmem
    exact place_not_mem_before hsplit hlisted
      (hplace ▸ List.mem_map_of_mem (List.mem_of_mem_filter hu))

end Context

/-! ## A run that breaks -/

/-- Files of which only `a.json` is there. -/
def loneFile : Context :=
  ⟨⟨"", .empty⟩, none, fun path => if path = "a.json" then .ok "1" else .error .missing⟩

/-- A declarator that requires a module. -/
def requiring (name module : String) : Node :=
  .declarator false (.binding ⟨⟨name, 0, .none, false⟩, none⟩)
    (.node .call [.reference ⟨"require", 0, .none, false⟩, .text module])

/-- An import that stands first and is come to last, one declaration that can be replaced, and one
    whose second declarator cannot. -/
def brokenModule : Node :=
  .node .moduleBody
    [.node (.importItem
        ⟨[.default ⟨"w", 0, .none, false⟩], "a.json", false, .evaluation, ⟨1, 2⟩⟩) [],
      .node (.declaration ⟨.constant, false, 0, ⟨3, 4⟩⟩) [requiring "x" "a.json"],
      .node (.declaration ⟨.constant, false, 0, ⟨5, 6⟩⟩)
        [requiring "y" "a.json", requiring "z" "b.json"]]

/-- The run of `brokenModule` fails, and so breaks at a stop. -/
theorem loneFile_breaks_brokenModule :
    (loneFile.run brokenModule).2.outcome ≠ .ok () ∧
    ∃ before failing after failure,
      loneFile.BreaksAt brokenModule before failing after failure ∧
      (loneFile.run brokenModule).2.failure = some (failing.task.span, failure) ∧
      (loneFile.run brokenModule).1 = loneFile.inlineAt (placesOf before) brokenModule ∧
      ∀ s ∈ failing :: after, placesOf before s.place = false := by
  have hfails : (loneFile.run brokenModule).2.outcome ≠ .ok () := by
    intro h
    exact nomatch h
  exact ⟨hfails, loneFile.run_breaks_at_first_failure brokenModule hfails⟩

end Inlay
