import Inlay.Proofs.BoundNames
import Inlay.Proofs.ReadTrace

/-!
# What a run depends on

A run is given a matcher, a file name and a way to read files, and **sees little of each**. Of the
matcher it sees the answers to the module names that are written in the program, of the file name
its folder, and of the files those that the jobs of the program ask for. Two runs that agree on that
agree on everything: the tree, the failure with its place, and every event of the journal.

* `Node.sources`: the module names that are written in a tree.
* `Context.AlikeOn`: two contexts agree on what a program lets them see.
* `job?_eq`, `definitions_eq`: they have the same jobs then, and the same comes of each.
* `perform_eq`, `performAll_eq`: one task, and all of them.
* `run_depends_only_on_what_is_asked`: whole runs.
-/

namespace Inlay

open Code

/-! ## Module names in a tree -/

namespace Code.Node

/-- The module names that a node has by itself: the source of an import, and the literal of a call
    of `require`. -/
def ownSources : Node → List String
  | node (.importItem decl) _ => [decl.source]
  | n => (requireSource? n).toList

mutual

/-- **The module names that are written in a tree**: the source of every import, and the literal of
    every call of `require`, wherever it stands. -/
def sources : Node → List String
  | node form children => ownSources (node form children) ++ sourcesAll children

def sourcesAll : List Node → List String
  | [] => []
  | n :: rest => sources n ++ sourcesAll rest

end

theorem mem_sourcesAll {children : List Node} {c : Node} (hc : c ∈ children) {source : String}
    (h : source ∈ c.sources) : source ∈ sourcesAll children := by
  induction children with
  | nil => cases hc
  | cons n rest ih =>
      rcases List.mem_cons.mp hc with rfl | hrest
      · exact List.mem_append_left _ h
      · exact List.mem_append_right _ (ih hrest)

/-- The names of every part of a tree are names in the tree. -/
theorem Within.mem_sources {m n : Node} (h : Within m n) {source : String}
    (hsource : source ∈ m.ownSources) : source ∈ n.sources := by
  induction h with
  | self =>
      obtain ⟨form, children⟩ := m
      exact List.mem_append_left _ hsource
  | child hc _ ih => exact List.mem_append_right _ (mem_sourcesAll hc ih)

theorem mem_ownSources_of_requireSource? {n : Node} {source : String}
    (h : requireSource? n = some source) : source ∈ n.ownSources := by
  obtain ⟨callee, hname, rfl⟩ := requireSource?_eq_some_iff.mp h
  rw [ownSources, h]
  · exact List.mem_singleton_self source
  · exact nofun

/-- An initialiser that requires a module is part of its declarator. -/
theorem within_init {d : Node} {source : String} (h : requireSource? d.init = some source) :
    Within d.init d := by
  revert h
  fun_cases Node.init d with
  | case1 definite target init => exact fun _ => .child (by simp) .self
  | case2 => exact nofun

end Code.Node

namespace Context

variable {ctx other : Context} {program : Node}

/-! ## Contexts that agree -/

/-- The folder of the file that holds the code, if it has one. -/
def folder? (ctx : Context) : Option (List Char) := ctx.file.bind fun f => Path.parent? f.toList

/-- **Two contexts agree on what a program lets them see**: their files lie in one folder, or both
    in none, the matchers give the same answer to every module name in the program, and the files
    that the jobs of the program ask for read the same. -/
structure AlikeOn (ctx other : Context) (program : Node) : Prop where
  folder : other.folder? = ctx.folder?
  accepts : ∀ source ∈ program.sources,
    other.matcher.accepts source = ctx.matcher.accepts source
  read : ∀ job ∈ ctx.jobOrder program,
    other.read (ctx.pathOf job.module) = ctx.read (ctx.pathOf job.module)

/-- Of the file name only the folder shows in a path. -/
theorem pathOf_of_folder_eq (h : other.folder? = ctx.folder?) (module : String) :
    other.pathOf module = ctx.pathOf module := by
  have hpath : ∀ c : Context, c.pathOf module = String.ofList
      (c.folder?.elim (Path.stripTag module.toList)
        fun folder => Path.join folder (Path.stripTag module.toList)) := by
    intro c
    rw [pathOf, Path.resolve, folder?]
    cases c.file.bind fun f => Path.parent? f.toList <;> rfl
  rw [hpath, hpath, h]

/-- Of the matcher a declarator shows the answer to the module that it requires. -/
theorem required?_of_accepts_eq {d : Node}
    (h : ∀ source, requireSource? d.init = some source →
      other.matcher.accepts source = ctx.matcher.accepts source) :
    other.required? d = ctx.required? d := by
  apply Option.ext
  rintro ⟨module, shape⟩
  rw [required?_eq_some_iff, required?_eq_some_iff]
  refine exists_congr fun definite => exists_congr fun target => exists_congr fun init => ?_
  refine and_congr_right fun hd => and_congr_right fun hsource => ?_
  rw [h module (by rw [hd]; exact hsource)]

theorem takeWhile_congr {α : Type} {p q : α → Bool} {l : List α} (h : ∀ x ∈ l, p x = q x) :
    l.takeWhile p = l.takeWhile q := by
  induction l with
  | nil => rfl
  | cons x rest ih =>
      obtain ⟨hx, hrest⟩ := List.forall_mem_cons.mp h
      rw [List.takeWhile_cons, List.takeWhile_cons, hx, ih hrest]

namespace AlikeOn

variable (h : ctx.AlikeOn other program)

include h

theorem pathOf_eq (module : String) : other.pathOf module = ctx.pathOf module :=
  pathOf_of_folder_eq h.folder module

/-! ## The same jobs -/

theorem importJob?_eq {decl : Import} {attributes : List Node}
    (hwithin : Node.Within (.node (.importItem decl) attributes) program) :
    other.importJob? decl = ctx.importJob? decl := by
  have haccepts := h.accepts decl.source (hwithin.mem_sources List.mem_cons_self)
  rw [importJob?, importJob?, haccepts]

/-- **Every child of a node of the program has the same job.** -/
theorem job?_eq {form : Form} {children : List Node} {child : Node}
    (hwithin : Node.Within (.node form children) program) (hchild : child ∈ children) :
    other.job? form child = ctx.job? form child := by
  have hinside : Node.Within child program := hwithin.of_mem_children hchild
  cases form with
  | declaration head =>
      have hrequired : other.required? child = ctx.required? child := by
        refine required?_of_accepts_eq (fun source hsource => h.accepts source ?_)
        -- the call stands in the declarator, and the declarator in the program
        exact ((Node.within_init hsource).trans hinside).mem_sources
          (Node.mem_ownSources_of_requireSource? hsource)
      rw [job?, job?, hrequired]
  | moduleBody =>
      obtain ⟨childForm, attributes⟩ := child
      cases childForm with
      | importItem decl => exact h.importJob?_eq hinside
      | _ => rfl
  | _ => rfl

theorem jobs_eq {task : Task} (hholds : program.Holds task) :
    other.jobs task = ctx.jobs task := by
  cases hholds with
  | declaration hwithin => exact List.filterMap_congr (fun d hd => h.job?_eq hwithin hd)
  | importing hwithin hmem =>
      rw [jobs, jobs, h.importJob?_eq (hwithin.of_mem_children hmem)]

theorem isEligible_eq {task : Task} (hholds : program.Holds task) :
    other.isEligible task = ctx.isEligible task := by
  cases hholds with
  | declaration hwithin => rfl
  | importing hwithin hmem =>
      rw [isEligible, isEligible, h.importJob?_eq (hwithin.of_mem_children hmem)]

/-- **The same comes of every job of the program.** -/
theorem definitions_eq {job : Job} (hjob : job ∈ ctx.jobOrder program) :
    other.definitions job = ctx.definitions job := by
  rw [definitions, definitions, fetch, fetch, h.pathOf_eq, h.read job hjob]

theorem fault?_eq {job : Job} (hjob : job ∈ ctx.jobOrder program) :
    other.fault? job = ctx.fault? job := by
  rw [fault?, fault?, h.definitions_eq hjob]

/-! ## The same journal -/

theorem verdict_eq {s : Stop} (hs : s ∈ program.stops) :
    other.verdict s.task = ctx.verdict s.task := by
  rw [verdict, verdict, h.jobs_eq (Node.holds_of_mem_stops program s hs),
    ← List.head?_filterMap, ← List.head?_filterMap]
  refine congrArg List.head? (List.filterMap_congr (fun job hjob => h.fault?_eq ?_))
  exact List.mem_flatMap.mpr ⟨s, hs, hjob⟩

theorem trace_eq {jobs : List Job} (hjobs : ∀ job ∈ jobs, job ∈ ctx.jobOrder program) :
    other.trace jobs = ctx.trace jobs := by
  induction jobs with
  | nil => rfl
  | cons job rest ih =>
      obtain ⟨hjob, hrest⟩ := List.forall_mem_cons.mp hjobs
      rw [trace, trace, jobEvents, jobEvents, h.pathOf_eq, h.definitions_eq hjob,
        h.fault?_eq hjob, ih hrest]

theorem taskEvents_eq {s : Stop} (hs : s ∈ program.stops) :
    other.taskEvents s.task = ctx.taskEvents s.task := by
  have hholds := Node.holds_of_mem_stops program s hs
  have htrace : other.trace (other.jobs s.task) = ctx.trace (ctx.jobs s.task) := by
    rw [h.jobs_eq hholds]
    exact h.trace_eq (fun job hjob => List.mem_flatMap.mpr ⟨s, hs, hjob⟩)
  revert htrace hholds
  cases s.task with
  | declaration head declarators => exact fun _ htrace => htrace
  | importing decl =>
      intro hholds htrace
      cases hholds with
      | importing hwithin hmem =>
          have haccepts := h.accepts decl.source
            ((hwithin.of_mem_children hmem).mem_sources List.mem_cons_self)
          rw [taskEvents, taskEvents, haccepts, htrace]

/-- **A task of the program does the same to a journal.** -/
theorem perform_eq {s : Stop} (hs : s ∈ program.stops) (j : Journal) :
    other.perform j s.task = ctx.perform j s.task := by
  rw [perform, perform, h.verdict_eq hs, h.taskEvents_eq hs]

/-- **Tasks of the program do the same to a journal**, one after the other. -/
theorem performAll_eq {stops : List Stop} (hstops : ∀ s ∈ stops, s ∈ program.stops)
    (j : Journal) : other.performAll j stops = ctx.performAll j stops := by
  induction stops generalizing j with
  | nil => rfl
  | cons s rest ih =>
      obtain ⟨hs, hrest⟩ := List.forall_mem_cons.mp hstops
      rw [performAll_cons, performAll_cons, h.perform_eq hs, ih hrest]

/-! ## The same tree -/

theorem replacedStops_eq : other.replacedStops program = ctx.replacedStops program := by
  have horder : other.visitOrder program = ctx.visitOrder program :=
    List.filter_congr fun s hs => h.isEligible_eq (Node.holds_of_mem_stops program s hs)
  rw [replacedStops, replacedStops, horder]
  refine takeWhile_congr (fun s hs => ?_)
  rw [h.verdict_eq (List.mem_of_mem_filter hs)]

theorem replacement?_eq {form : Form} {children : List Node} {child : Node}
    (hwithin : Node.Within (.node form children) program) (hchild : child ∈ children) :
    other.replacement? form child = ctx.replacement? form child := by
  rw [replacement?, replacement?, h.job?_eq hwithin hchild]
  cases hjob : ctx.job? form child with
  | none => rfl
  | some job =>
      dsimp only
      rw [h.definitions_eq (ctx.mem_jobOrder_of_within hwithin hchild hjob)]

end AlikeOn

mutual

/-- Trees whose children are replaced alike are the same with some tasks replaced. -/
theorem inlineAt_congr :
    ∀ (n : Node) (done : Place → Bool),
      (∀ form children, Node.Within (.node form children) n → ∀ child ∈ children,
        other.replacement? form child = ctx.replacement? form child) →
      other.inlineAt done n = ctx.inlineAt done n
  | .node form children, done, h => by
      rw [inlineAt_node, inlineAt_node, inlineAllAt_congr form children 0 done
        (h form children .self)]
      intro child hchild form' children' hwithin
      exact h form' children' (.child hchild hwithin)

theorem inlineAllAt_congr (form : Form) :
    ∀ (children : List Node) (i : Nat) (done : Place → Bool),
      (∀ child ∈ children, other.replacement? form child = ctx.replacement? form child) →
      (∀ child ∈ children, ∀ form' children', Node.Within (.node form' children') child →
        ∀ c ∈ children', other.replacement? form' c = ctx.replacement? form' c) →
      other.inlineAllAt done form i children = ctx.inlineAllAt done form i children
  | [], _, _, _, _ => rfl
  | child :: rest, i, done, hhere, hbelow => by
      obtain ⟨hchild, hrest⟩ := List.forall_mem_cons.mp hhere
      obtain ⟨hinside, hothers⟩ := List.forall_mem_cons.mp hbelow
      rw [inlineAllAt_cons, inlineAllAt_cons, replacementAt?, replacementAt?, hchild,
        inlineAt_congr child _ hinside, inlineAllAt_congr form rest (i + 1) done hrest hothers]

end

/-- **A run depends only on what is asked of its context.** Two runs of a program whose contexts
    agree on the folder of the file, on the module names that are written in the program, and on the
    files that its jobs ask for, leave the same tree and the same journal: the same outcome, the
    same failure with its span, and the same events. All other files, the name of the file in its
    folder, and how the matcher comes to its answers have no influence. -/
theorem run_depends_only_on_what_is_asked (ctx other : Context) (program : Node)
    (h : ctx.AlikeOn other program) : other.run program = ctx.run program := by
  have htree : (other.run program).1 = (ctx.run program).1 := by
    rw [other.run_tree, ctx.run_tree, h.replacedStops_eq]
    exact inlineAt_congr program _
      (fun form children hwithin child hchild => h.replacement?_eq hwithin hchild)
  have hjournal : (other.run program).2 = (ctx.run program).2 := by
    rw [other.journal_run, ctx.journal_run, h.performAll_eq (fun _ hs => hs)]
  exact Prod.ext htree hjournal

end Context

/-! ## Two contexts that agree on a module -/

/-- The default matcher, and the file `src/d.json` alone. -/
def strictContext : Context :=
  ⟨.default, some "src/a.js", fun path => if path = "src/d.json" then .ok "1" else .error .missing⟩

/-- A matcher that accepts every name, another file of the same folder, and files everywhere but at
    `src/e.json`. -/
def laxContext : Context :=
  ⟨⟨"", .empty⟩, some "src/./b.js", fun path =>
    if path = "src/d.json" then .ok "1"
    else if path = "src/e.json" then .error .missing
    else .ok "[]"⟩

/-- An import and a declaration that read `src/d.json`, and one that looks for `src/e.json`. -/
def servedModule : Node :=
  .node .moduleBody
    [.node (.importItem
        ⟨[.default ⟨"w", 0, .none, false⟩], "d.json", false, .evaluation, ⟨1, 2⟩⟩) [],
      .node (.declaration ⟨.constant, false, 0, ⟨3, 4⟩⟩) [requiring "x" "d.json"],
      .node (.declaration ⟨.constant, false, 0, ⟨5, 6⟩⟩) [requiring "y" "e.json"]]

/-- The two contexts differ in their matchers and in their files, and the runs do not. -/
theorem strict_and_lax_agree :
    strictContext.AlikeOn laxContext servedModule ∧
    strictContext.matcher.accepts "f.js" ≠ laxContext.matcher.accepts "f.js" ∧
    strictContext.read "g.json" ≠ laxContext.read "g.json" ∧
    laxContext.run servedModule = strictContext.run servedModule := by
  have hsources : ∀ source ∈ servedModule.sources,
      laxContext.matcher.accepts source = strictContext.matcher.accepts source := by
    decide +kernel
  have hmodules : ∀ module ∈ (strictContext.jobOrder servedModule).map Job.module,
      module = "d.json" ∨ module = "e.json" := by
    decide +kernel
  have halike : strictContext.AlikeOn laxContext servedModule := by
    refine ⟨rfl, hsources, ?_⟩
    intro job hjob
    rcases hmodules job.module (List.mem_map_of_mem hjob) with h | h <;> rw [h] <;> rfl
  refine ⟨halike, by decide +kernel, ?_,
    strictContext.run_depends_only_on_what_is_asked _ _ halike⟩
  exact nofun

end Inlay
