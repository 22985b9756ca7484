import Inlay.Proofs.ReadTrace
import Inlay.Proofs.Rewritten

/-!
# What the reports of a run are worth

When a job is done, the journal tells that a declaration **was inlined**, with its module, its shape
and the number of its definitions. Here these reports are compared with the differences between the
given tree and the one that a run leaves.

An import has one job, and what the journal tells of it is true. A declaration may have several. It
is replaced as a whole behind the last of them, but the journal tells of each at once: if a later
one fails, the declaration stays as it was and the reports on the earlier ones are **revoked**.

* `Journal.reports`: the reports in a journal; `reports_run`: those of a run.
* `Node.requests`: the modules that a tree asks for. `Rewritten.requests_perm`: every difference
  answers one request, so two lists of all differences between two trees are of one length.
* `reportsAt_eq`: the differences in a tree with some tasks replaced, stop by stop.
* `Context.replacedReports`, `Context.revoked`: the reports that are true, and those that are not.
* `run_reports_replaced_then_revoked`: the reports of a run are the two, one after the other.
* `half_done_declaration_is_reported`: a run with a report on nothing.
-/

namespace Inlay

open Code Json

/-- The report that an event makes. -/
def Event.report? : Event → Option Report
  | .inlined origin module kind bindings => some ⟨origin, module, kind, bindings⟩
  | _ => none

/-- **The reports of a journal**, in order. -/
def Journal.reports (j : Journal) : List Report := j.events.filterMap Event.report?

/-! ## Trees without stops -/

namespace Code.Node

mutual

theorem stops_of_isPlain : ∀ n : Node, n.isPlain = true → n.stops = []
  | node form children, h => by
      rw [isPlain, Bool.and_eq_true, Bool.not_eq_true'] at h
      rw [stops_node, stopsAll_of_isPlainAll children 0 h.2]
      cases form with
      | declaration head => exact nomatch h.1
      | moduleBody => exact nomatch h.1
      | _ => rfl

theorem stopsAll_of_isPlainAll :
    ∀ (ns : List Node) (i : Nat), isPlainAll ns = true → stopsAll i ns = []
  | [], _, _ => rfl
  | n :: rest, i, h => by
      rw [isPlainAll, Bool.and_eq_true] at h
      rw [stopsAll_cons, stops_of_isPlain n h.1, stopsAll_of_isPlainAll rest (i + 1) h.2]
      rfl

end

/-- **The attributes of imports hold nothing**, anywhere in a tree: no declaration, and no module
    with imports. -/
def AttributesHoldNothing (n : Node) : Prop :=
  ∀ decl attributes, Within (node (.importItem decl) attributes) n → stopsAll 0 attributes = []

theorem attributesHoldNothing_node_iff {form : Form} {children : List Node} :
    (node form children).AttributesHoldNothing ↔
      (∀ decl, form = .importItem decl → stopsAll 0 children = []) ∧
        ∀ c ∈ children, c.AttributesHoldNothing := by
  simp only [AttributesHoldNothing, within_node_iff, node.injEq]
  grind

end Code.Node

/-- **Nothing stops in a child that is replaced**: not in a plain pattern, nor in a call of
    `require`, nor in attributes that hold nothing. -/
theorem Replaces.stops {form : Form} {child : Node} {code : List Node} {report : Report}
    (h : Replaces form child code report) (hattributes : child.AttributesHoldNothing) :
    child.stops = [] := by
  cases h with
  | required htarget hsource _ _ _ =>
      obtain ⟨callee, -, rfl⟩ := requireSource?_eq_some_iff.mp hsource
      refine Node.stops_of_isPlain _ (Node.isPlain_node_iff.mpr ⟨rfl, ?_⟩)
      exact List.forall_mem_cons.mpr ⟨htarget, List.forall_mem_singleton.mpr rfl⟩
  | imported _ _ =>
      rw [Node.stops_node, hattributes _ _ .self]
      rfl

/-! ## What is asked for -/

/-- **The module that a child asks for**: a declarator with a `require`, or an import in a
    module. -/
def Code.Form.request? : Form → Node → Option String
  | .declaration _, child => requireSource? child.init
  | .moduleBody, .node (.importItem decl) _ => some decl.source
  | _, _ => none

/-- The modules that a task asks for, accepted or not. -/
def Task.requests : Task → List String
  | .declaration head declarators => declarators.filterMap (Form.declaration head).request?
  | .importing decl => [decl.source]

namespace Code.Node

/-- **The modules that a tree asks for**, in the order of the walk. -/
def requests (n : Node) : List String := n.stops.flatMap fun s => s.task.requests

theorem requests_stopsAll (children : List Node) (i : Nat) :
    ((stopsAll i children).flatMap fun s => s.task.requests) = children.flatMap requests := by
  induction children generalizing i with
  | nil => rfl
  | cons child rest ih =>
      rw [stopsAll_cons, List.flatMap_append, ih, List.flatMap_map, List.flatMap_cons]
      rfl

theorem requests_importStops (items : List Node) (i : Nat) :
    ((importStops i items).flatMap fun s => s.task.requests)
      = items.filterMap Form.moduleBody.request? := by
  fun_induction importStops i items with
  | case1 i => rfl
  | case2 i decl attributes rest ih =>
      rw [List.flatMap_cons, ih, List.filterMap_cons]
      rfl
  | case3 i item rest hitem ih =>
      have hnone : Form.moduleBody.request? item = none := by
        obtain ⟨form, children⟩ := item
        cases form with
        | importItem decl => exact absurd rfl (hitem decl children)
        | _ => rfl
      rw [ih, List.filterMap_cons_none hnone]

theorem requests_node (form : Form) (children : List Node) :
    requests (node form children)
      = children.flatMap requests ++ children.filterMap form.request? := by
  have hown : ((ownStops form children).flatMap fun s => s.task.requests)
      = children.filterMap form.request? := by
    cases form with
    | declaration head => exact List.append_nil _
    | moduleBody => exact requests_importStops children 0
    | _ => exact (List.filterMap_eq_nil_iff.mpr (fun _ _ => rfl)).symm
  rw [requests, stops_node, List.flatMap_append, requests_stopsAll, hown]

theorem requests_of_stops {n : Node} (h : n.stops = []) : n.requests = [] := by
  rw [requests, h]
  rfl

/-- A definition asks for nothing. -/
theorem IsDefinition.requests {n : Node} (h : n.IsDefinition) (form : Form) :
    form.request? n = none ∧ n.requests = [] := by
  refine ⟨?_, requests_of_stops (stops_of_isPlain n h.isPlain)⟩
  obtain ⟨target, value, rfl, -, hdata⟩ := h
  cases form with
  | declaration head => exact requireSource?_of_isData hdata
  | _ => rfl

theorem IsConstant.requests {n : Node} (h : n.IsConstant) :
    Form.moduleBody.request? n = none ∧ n.requests = [] := by
  obtain ⟨head, d, rfl, -, hd⟩ := h
  obtain ⟨hown, hinside⟩ := hd.requests (.declaration head)
  refine ⟨rfl, ?_⟩
  rw [requests_node]
  simp [hown, hinside]

end Code.Node

mutual

theorem Rewritten.sketch_eq {n n' : Node} {reports : List Report} :
    Rewritten n n' reports → n'.sketch = n.sketch
  | @Rewritten.node form _ _ _ _ hall => by
      cases h : form.isOpen with
      | true =>
          rw [Node.sketch, Node.sketch, h]
          rfl
      | false => rw [Node.sketch_of_closed h, Node.sketch_of_closed h, hall.sketchAll_eq h]

theorem RewrittenAll.sketchAll_eq {form : Form} {children children' : List Node}
    {below own : List Report} :
    RewrittenAll form children children' below own → form.isOpen = false →
    Node.sketchAll children' = Node.sketchAll children
  | .nil, _ => rfl
  | .kept hchild hrest, h => by
      rw [Node.sketchAll_cons, Node.sketchAll_cons, hchild.sketch_eq, hrest.sketchAll_eq h]
  | .replaced hreplaces _, h => by cases hreplaces <;> cases h

end

/-- A child that is kept asks for what it asked for. -/
theorem request?_of_sketch_eq {child child' : Node} (h : child'.sketch = child.sketch)
    (form : Form) : form.request? child' = form.request? child := by
  cases form with
  | declaration head =>
      show requireSource? child'.init = requireSource? child.init
      rw [← requireSource?_sketch child'.init, ← init_sketch, h, init_sketch, requireSource?_sketch]
  | moduleBody =>
      obtain ⟨form', children'⟩ := child'
      obtain ⟨form, children⟩ := child
      obtain ⟨rfl, -⟩ := Node.node.inj h
      cases form' <;> rfl
  | _ => rfl

/-- **A replacement answers one request**, and the report on it names the module. -/
theorem Replaces.answers {form : Form} {child : Node} {code : List Node} {report : Report}
    (h : Replaces form child code report) :
    form.request? child = some report.module ∧
      code.filterMap form.request? = [] ∧ code.flatMap Node.requests = [] := by
  have hcode : ∀ n ∈ code, form.request? n = none ∧ n.requests = [] := by
    cases h with
    | required _ _ _ hcode _ => exact fun n hn => (hcode n hn).requests _
    | imported hcode _ => exact fun n hn => (hcode n hn).requests
  refine ⟨?_, List.filterMap_eq_nil_iff.mpr (fun n hn => (hcode n hn).1),
    List.flatMap_eq_nil_iff.mpr (fun n hn => (hcode n hn).2)⟩
  cases h with
  | required _ hsource _ _ _ => exact hsource
  | imported _ _ => rfl

theorem perm_regroup {α : Type} (a b c d : List α) :
    ((a ++ b) ++ (c ++ d)).Perm ((a ++ c) ++ (b ++ d)) := by
  rw [List.append_assoc, List.append_assoc]
  exact (List.perm_append_comm_assoc b c d).append_left a

mutual

/-- **The requests of a tree are those that reports answer, and those that are left.** -/
theorem Rewritten.requests_perm {n n' : Node} {reports : List Report} :
    Rewritten n n' reports → n.AttributesHoldNothing →
    n.requests.Perm (reports.map Report.module ++ n'.requests)
  | .node hall, h => by
      obtain ⟨hbelow, hown⟩ := hall.requests_perm (Node.attributesHoldNothing_node_iff.mp h).2
      rw [Node.requests_node, Node.requests_node, List.map_append]
      exact (hbelow.append hown).trans (perm_regroup _ _ _ _)

/-- Those below the children, and those of the children themselves. -/
theorem RewrittenAll.requests_perm {form : Form} {children children' : List Node}
    {below own : List Report} :
    RewrittenAll form children children' below own →
    (∀ c ∈ children, c.AttributesHoldNothing) →
    (children.flatMap Node.requests).Perm
        (below.map Report.module ++ children'.flatMap Node.requests) ∧
      (children.filterMap form.request?).Perm
        (own.map Report.module ++ children'.filterMap form.request?)
  | .nil, _ => ⟨.nil, .nil⟩
  | .kept hchild hrest, h => by
      obtain ⟨hfirst, hothers⟩ := List.forall_mem_cons.mp h
      have hinside := hchild.requests_perm hfirst
      obtain ⟨hbelow, hown⟩ := hrest.requests_perm hothers
      refine ⟨?_, ?_⟩
      · rw [List.flatMap_cons, List.flatMap_cons, List.map_append]
        exact (hinside.append hbelow).trans (perm_regroup _ _ _ _)
      · rw [List.filterMap_cons, List.filterMap_cons, request?_of_sketch_eq hchild.sketch_eq]
        cases form.request? _ with
        | none => exact hown
        | some source => exact (hown.cons source).trans List.perm_middle.symm
  | .replaced hreplaces hrest, h => by
      obtain ⟨hfirst, hothers⟩ := List.forall_mem_cons.mp h
      obtain ⟨hbelow, hown⟩ := hrest.requests_perm hothers
      -- the child has its own request and none inside, and nothing in its place has any
      obtain ⟨hasked, hcode, hbelowCode⟩ := hreplaces.answers
      have hinside := Node.requests_of_stops (hreplaces.stops hfirst)
      refine ⟨?_, ?_⟩
      · rw [List.flatMap_cons, List.flatMap_append, hinside, hbelowCode]
        exact hbelow
      · rw [List.filterMap_cons_some hasked, List.filterMap_append, hcode]
        exact hown.cons _

end

/-- Among stops at different places, some are those at their places. -/
theorem filter_placesOf_of_sublist {stops chosen : List Stop} (h : chosen.Sublist stops)
    (hplaces : (stops.map Stop.place).Nodup) :
    (stops.filter fun s => placesOf chosen s.place) = chosen := by
  induction h with
  | slnil => rfl
  | cons s hsub ih =>
      obtain ⟨hs, hrest⟩ := List.nodup_cons.mp hplaces
      have hfalse : placesOf _ s.place = false :=
        placesOf_eq_false (mt (fun hmem => (hsub.map Stop.place).mem hmem) hs)
      rw [List.filter_cons, hfalse, if_neg Bool.false_ne_true, ih hrest]
  | cons_cons s hsub ih =>
      obtain ⟨hs, hrest⟩ := List.nodup_cons.mp hplaces
      rw [List.filter_cons, if_pos (placesOf_of_mem List.mem_cons_self)]
      refine congrArg (s :: ·) (Eq.trans (List.filter_congr ?_) (ih hrest))
      -- the stops behind `s` stand at other places
      intro t ht
      have hne : t.place ≠ s.place := fun heq => hs (heq ▸ List.mem_map_of_mem ht)
      simp [placesOf, hne]

namespace Context

variable (ctx : Context)

/-! ## Differences, stop by stop -/

/-- The reports on the jobs of a task that can be done. -/
def reportsOf (task : Task) : List Report := (ctx.jobs task).filterMap ctx.reportOf?

/-- The reports on the tasks of stops, as far as they stand at a place in `done`. -/
def reportsAlong (done : Place → Bool) (stops : List Stop) : List Report :=
  (stops.filter fun s => done s.place).flatMap fun s => ctx.reportsOf s.task

theorem reportsAlong_append (done : Place → Bool) (first second : List Stop) :
    ctx.reportsAlong done (first ++ second)
      = ctx.reportsAlong done first ++ ctx.reportsAlong done second := by
  rw [reportsAlong, List.filter_append, List.flatMap_append]
  rfl

theorem reportsAlong_inChild (done : Place → Bool) (i : Nat) (stops : List Stop) :
    ctx.reportsAlong done (stops.map (Stop.inChild i))
      = ctx.reportsAlong (fun p => done (i :: p)) stops := by
  rw [reportsAlong, List.filter_map, List.flatMap_map]
  rfl

theorem ownReports_declaration (done : Place → Bool) (head : DeclarationHead)
    (children : List Node) (i : Nat) :
    ctx.ownReports done (.declaration head) i children
      = if done [] then ctx.reportsOf (.declaration head children) else [] := by
  have hsite : ∀ k child, ctx.reportAt? done (.declaration head) k child
      = if done [] then (ctx.job? (.declaration head) child).bind ctx.reportOf? else none :=
    fun _ _ => rfl
  rw [reportsOf, jobs, List.filterMap_filterMap, List.filterMap_eq_flatMap_toList]
  induction children generalizing i with
  | nil => cases done [] <;> rfl
  | cons child rest ih =>
      rw [ownReports, ih, hsite, List.flatMap_cons]
      cases done [] <;> rfl

theorem ownReports_moduleBody (done : Place → Bool) (items : List Node) (i : Nat) :
    ctx.ownReports done .moduleBody i items
      = ctx.reportsAlong done (Node.importStops i items) := by
  fun_induction Node.importStops i items with
  | case1 i => rfl
  | case2 i decl attributes rest ih =>
      have hreports : ctx.reportsOf (.importing decl)
          = ((ctx.importJob? decl).bind ctx.reportOf?).toList := by
        rw [reportsOf, jobs]
        cases ctx.importJob? decl with
        | none => rfl
        | some job =>
            show [job].filterMap ctx.reportOf? = (ctx.reportOf? job).toList
            cases hreport : ctx.reportOf? job <;> simp [hreport]
      rw [ownReports, ih, reportsAlong, reportsAlong, List.filter_cons, reportAt?, siteOf, job?]
      dsimp only
      cases done [i] with
      | false => rfl
      | true =>
          rw [if_pos rfl, if_pos rfl, List.flatMap_cons, hreports]
  | case3 i item rest hitem ih =>
      have hnone : ctx.job? .moduleBody item = none := by
        obtain ⟨form, children⟩ := item
        cases form with
        | importItem decl => exact absurd rfl (hitem decl children)
        | _ => rfl
      rw [ownReports, ih, reportAt?, hnone]
      split <;> rfl

theorem ownReports_eq (done : Place → Bool) (form : Form) (children : List Node) :
    ctx.ownReports done form 0 children
      = ctx.reportsAlong done (Node.ownStops form children) := by
  have hclosed : form.isOpen = false → ∀ i, ctx.ownReports done form i children = [] := by
    intro h
    induction children with
    | nil => exact fun _ => rfl
    | cons child rest ih =>
        intro i
        rw [ownReports, ih, reportAt?, ctx.job?_of_closed h]
        split <;> rfl
  cases form with
  | declaration head =>
      rw [ownReports_declaration, reportsAlong]
      show _ = List.flatMap _ (List.filter _ [_])
      rw [List.filter_cons]
      split
      · exact (List.append_nil _).symm
      · rfl
  | moduleBody => exact ctx.ownReports_moduleBody done children 0
  | _ => exact hclosed rfl 0

mutual

/-- **The differences in a tree with some tasks replaced** are those of its stops, in the order of
    the walk. -/
theorem reportsAt_eq :
    ∀ (n : Node) (done : Place → Bool), n.AttributesHoldNothing →
      ctx.reportsAt done n = ctx.reportsAlong done n.stops
  | .node form children, done, h => by
      rw [reportsAt, Node.stops_node, reportsAlong_append, ctx.ownReports_eq,
        reportsBelow_eq form children 0 done (Node.attributesHoldNothing_node_iff.mp h).2]

theorem reportsBelow_eq (form : Form) :
    ∀ (children : List Node) (i : Nat) (done : Place → Bool),
      (∀ child ∈ children, child.AttributesHoldNothing) →
      ctx.reportsBelow done form i children
        = ctx.reportsAlong done (Node.stopsAll i children)
  | [], _, _, _ => rfl
  | child :: rest, i, done, h => by
      obtain ⟨hchild, hrest⟩ := List.forall_mem_cons.mp h
      rw [reportsBelow, Node.stopsAll_cons, reportsAlong_append, reportsAlong_inChild,
        reportsBelow_eq form rest (i + 1) done hrest, reportsAt_eq child _ hchild]
      cases hcode : ctx.replacementAt? done form i child with
      | none => rfl
      | some code =>
          obtain ⟨report, -, hreplaces⟩ := ctx.replaces_of_replacementAt? hcode
          rw [hreplaces.stops hchild]
          rfl

end

/-! ## The reports of a run -/

theorem shown_report? (job : Job) : ctx.shown Event.report? job = (ctx.reportOf? job).toList := by
  rw [shown, jobEvents, reportOf?]
  cases ctx.definitions job <;> rfl

/-- The reports of a run are on the jobs that it begins. -/
theorem reports_run (program : Node) :
    (ctx.run program).2.reports = (ctx.begun (ctx.jobOrder program)).filterMap ctx.reportOf? := by
  rw [Journal.reports, ctx.view_run ⟨fun _ => rfl, fun _ => rfl⟩,
    List.filterMap_eq_flatMap_toList]
  exact List.flatMap_congr (fun job _ => ctx.shown_report? job)

/-- **The reports on what a run replaces**: on the declarations and eligible imports before the
    first one that fails, in the order of the walk. -/
def replacedReports (program : Node) : List Report :=
  (ctx.replacedStops program).flatMap fun s => ctx.reportsOf s.task

/-- The stop at which a run fails. -/
def failing? (program : Node) : Option Stop :=
  program.stops.find? fun s => (ctx.verdict s.task).isSome

/-- **The reports that are revoked**: on the jobs of the failing stop before the one that fails. -/
def revoked (program : Node) : List Report :=
  match ctx.failing? program with
  | none => []
  | some s => ((ctx.jobs s.task).takeWhile ctx.passes).filterMap ctx.reportOf?

/-- A run succeeds if it fails at no stop. -/
theorem failing?_eq_none_iff (program : Node) :
    ctx.failing? program = none ↔ ctx.AllPass program.stops := by
  rw [failing?, List.find?_eq_none]
  constructor
  · intro h s hs
    exact Option.not_isSome_iff_eq_none.mp (h s hs)
  · intro h s hs
    rw [h s hs]
    exact Bool.false_ne_true

theorem reportOf?_isSome (job : Job) : (ctx.reportOf? job).isSome = ctx.passes job := by
  rw [reportOf?, passes, fault?]
  cases ctx.definitions job <;> rfl

/-- A job that fails is begun, but there is no report on it. -/
theorem filterMap_begun (jobs : List Job) :
    (ctx.begun jobs).filterMap ctx.reportOf?
      = (jobs.takeWhile ctx.passes).filterMap ctx.reportOf? := by
  have hlast : ((jobs.dropWhile ctx.passes).take 1).filterMap ctx.reportOf? = [] := by
    cases hdrop : jobs.dropWhile ctx.passes with
    | nil => rfl
    | cons job rest =>
        have hfails : ctx.passes job = false := by
          have hhead := List.head?_dropWhile_not ctx.passes jobs
          rw [hdrop] at hhead
          exact hhead
        rw [← ctx.reportOf?_isSome, Option.isSome_eq_false_iff, Option.isNone_iff_eq_none] at hfails
        simp [hfails]
  rw [begun, List.filterMap_append, hlast, List.append_nil]

/-- Stops that are not eligible have no jobs to report on. -/
theorem flatMap_reportsOf_filter (stops : List Stop) :
    (stops.filter fun s => ctx.isEligible s.task).flatMap (fun s => ctx.reportsOf s.task)
      = (stops.flatMap fun s => ctx.jobs s.task).filterMap ctx.reportOf? := by
  rw [List.filterMap_flatMap]
  induction stops with
  | nil => rfl
  | cons s rest ih =>
      rw [List.filter_cons, List.flatMap_cons]
      cases heligible : ctx.isEligible s.task with
      | true =>
          rw [if_pos rfl, List.flatMap_cons, ih]
          rfl
      | false =>
          rw [if_neg Bool.false_ne_true, ih, ctx.jobs_of_not_eligible heligible]
          rfl

/-- **The reports of a run** are those on what it replaces, and then those that are revoked. -/
theorem reports_run_eq (program : Node) :
    (ctx.run program).2.reports = ctx.replacedReports program ++ ctx.revoked program := by
  rw [ctx.reports_run, jobOrder, replacedReports, revoked]
  by_cases hpass : ctx.AllPass program.stops
  · rw [(ctx.failing?_eq_none_iff program).mpr hpass, ctx.replacedStops_of_allPass hpass,
      visitOrder, ctx.flatMap_reportsOf_filter, ctx.begun_of_pass (ctx.passes_of_allPass hpass)]
    exact (List.append_nil _).symm
  · obtain ⟨before, s, after, failure, hsplit, hbefore, hs⟩ :=
      ctx.exists_split_of_not_allPass hpass
    have hfind : ctx.failing? program = some s := by
      refine List.find?_eq_some_iff_append.mpr ⟨by rw [hs]; rfl, before, after, hsplit, ?_⟩
      intro t ht
      rw [hbefore t ht]
      rfl
    obtain ⟨job, hjob, hfails⟩ := ctx.exists_fails_of_verdict hs
    rw [hfind, ctx.replacedStops_of_split hsplit hbefore hs, ctx.flatMap_reportsOf_filter, hsplit,
      List.flatMap_append, List.flatMap_cons,
      ctx.begun_append_of_pass (ctx.passes_of_allPass hbefore),
      ctx.begun_append_of_fail hjob hfails, List.filterMap_append, ctx.filterMap_begun]

/-- **What a run makes of a program differs from it by what the run replaces**, and by nothing
    else. -/
theorem rewritten_run {program : Node} (h : program.AttributesHoldNothing) :
    Rewritten program (ctx.run program).1 (ctx.replacedReports program) := by
  have hsub : (ctx.replacedStops program).Sublist program.stops :=
    (List.takeWhile_sublist _).trans List.filter_sublist
  have hrewritten := ctx.rewritten_inlineAt program (placesOf (ctx.replacedStops program))
  rw [ctx.reportsAt_eq program _ h, reportsAlong,
    filter_placesOf_of_sublist hsub program.nodup_places, ← ctx.run_tree] at hrewritten
  exact hrewritten

/-- Nothing is revoked where the failing stop fails at its first job. -/
theorem revoked_eq_nil_iff (program : Node) :
    ctx.revoked program = [] ↔
      ∀ s ∈ ctx.failing? program, ∀ job ∈ (ctx.jobs s.task).head?, ctx.passes job = false := by
  rw [revoked]
  cases ctx.failing? program with
  | none => exact ⟨fun _ => nofun, fun _ => rfl⟩
  | some s =>
      show List.filterMap _ (List.takeWhile _ (ctx.jobs s.task)) = [] ↔ _
      simp only [Option.mem_some_iff, forall_eq']
      cases ctx.jobs s.task with
      | nil => exact ⟨fun _ => nofun, fun _ => rfl⟩
      | cons job rest =>
          simp only [List.head?_cons, Option.mem_some_iff, forall_eq']
          cases hpasses : ctx.passes job with
          | false => simp [hpasses]
          | true =>
              rw [← ctx.reportOf?_isSome, Option.isSome_iff_exists] at hpasses
              obtain ⟨report, hreport⟩ := hpasses
              simp [← ctx.reportOf?_isSome, hreport]

/-- **The reports of a run are on what it replaces, and then on what it throws back.** The former
    are the differences between the program and what is left of it, one to one and in order; there
    are none of the latter in a run that succeeds. So the reports are true of exactly the runs whose
    failing declaration fails at its first `require`. -/
theorem run_reports_replaced_then_revoked (program : Node) (h : program.AttributesHoldNothing) :
    Rewritten program (ctx.run program).1 (ctx.replacedReports program) ∧
    (ctx.run program).2.reports = ctx.replacedReports program ++ ctx.revoked program ∧
    ((ctx.run program).2.outcome = .ok () ↔ ctx.failing? program = none) ∧
    (Rewritten program (ctx.run program).1 (ctx.run program).2.reports ↔
      ∀ s ∈ ctx.failing? program, ∀ job ∈ (ctx.jobs s.task).head?, ctx.passes job = false) := by
  have hrewritten := ctx.rewritten_run h
  have hreports := ctx.reports_run_eq program
  refine ⟨hrewritten, hreports, ?_, ?_⟩
  · rw [ctx.outcome_run_eq_ok_iff, ctx.failing?_eq_none_iff]
  rw [← ctx.revoked_eq_nil_iff, hreports]
  constructor
  · intro hall
    -- both lists of reports answer the same requests, so the longer one has nothing more
    have hanswers := (hrewritten.requests_perm h).symm.trans (hall.requests_perm h)
    have hlength := hanswers.length_eq
    simp only [List.length_append, List.length_map] at hlength
    exact List.eq_nil_of_length_eq_zero (by omega)
  · intro hnil
    rw [hnil, List.append_nil]
    exact hrewritten

end Context

/-- The reports on `brokenModule`: one on the declaration that is replaced, and one on the first
    half of the next, which fails. -/
theorem brokenModule_reports :
    brokenModule.AttributesHoldNothing ∧
    loneFile.replacedReports brokenModule = [⟨.required, "a.json", "simple-require", 1⟩] ∧
    loneFile.revoked brokenModule = [⟨.required, "a.json", "simple-require", 1⟩] ∧
    Rewritten brokenModule (loneFile.run brokenModule).1
      (loneFile.replacedReports brokenModule) ∧
    ¬ Rewritten brokenModule (loneFile.run brokenModule).1
      (loneFile.run brokenModule).2.reports := by
  have hnothing : brokenModule.AttributesHoldNothing := by
    simp [brokenModule, requiring, Node.attributesHoldNothing_node_iff, Node.stopsAll]
  obtain ⟨hrewritten, -, -, hall⟩ :=
    loneFile.run_reports_replaced_then_revoked brokenModule hnothing
  refine ⟨hnothing, by decide +kernel, by decide +kernel, hrewritten, ?_⟩
  rw [hall, ← loneFile.revoked_eq_nil_iff]
  decide +kernel

/-- A declaration with two declarators, of which the second fails. -/
def halfDone : Node :=
  .node .script
    [.node (.declaration ⟨.constant, false, 0, ⟨1, 2⟩⟩)
      [requiring "y" "a.json", requiring "z" "b.json"]]

/-- **A report on nothing**: the program is left as it was, and still the journal tells that a
    declaration was inlined. -/
theorem half_done_declaration_is_reported :
    (loneFile.run halfDone).1 = halfDone ∧
    (loneFile.run halfDone).2.reports = [⟨.required, "a.json", "simple-require", 1⟩] ∧
    ¬ Rewritten halfDone (loneFile.run halfDone).1 (loneFile.run halfDone).2.reports := by
  have htree : (loneFile.run halfDone).1 = halfDone := rfl
  have hreports :
      (loneFile.run halfDone).2.reports = [⟨.required, "a.json", "simple-require", 1⟩] := rfl
  have hnothing : halfDone.AttributesHoldNothing := by
    simp [halfDone, requiring, Node.attributesHoldNothing_node_iff]
  refine ⟨htree, hreports, ?_⟩
  intro h
  have hlength := (h.requests_perm hnothing).length_eq
  rw [htree, hreports, List.length_append, List.length_map, List.length_singleton] at hlength
  omega

end Inlay
