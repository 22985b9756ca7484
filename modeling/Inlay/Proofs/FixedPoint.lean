import Inlay.Proofs.DataForms
import Inlay.Proofs.ReadTrace

/-!
# A second run finds nothing to do

The tree that a successful run leaves is a **fixed point**: no declarator and no import in it asks
for a module any more, so a second run with the same matcher changes nothing and reads nothing,
whatever files there are then. Three kinds of children are behind this: what was written in place of
a declaration is data, what asked for nothing still asks for nothing after its own children were
replaced, and nothing else is a child of an open form.

* `Context.IsSettled`: nothing in a tree asks for a module.
* `isSettled_inlined`: a tree in which every job can be done is settled once they are done.
* `run_of_isSettled`: a run leaves a settled tree as it is, and reads nothing.
* `run_output_is_fixed_point`: both together.
-/

namespace Inlay

open Code

namespace Context

variable (ctx : Context)

/-! ## Settled trees -/

/-- **A settled tree**: no child of a node in it has a job. -/
def IsSettled (n : Node) : Prop :=
  ∀ form children, Node.Within (.node form children) n →
    ∀ child ∈ children, ctx.job? form child = none

/-- A tree is settled if no child of its root has a job and all of them are settled. -/
theorem isSettled_node_iff {form : Form} {children : List Node} :
    ctx.IsSettled (.node form children) ↔
      ∀ child ∈ children, ctx.job? form child = none ∧ ctx.IsSettled child := by
  constructor
  · intro h child hchild
    refine ⟨h form children .self child hchild, ?_⟩
    intro form' children' hwithin
    exact h form' children' (.child hchild hwithin)
  · intro h form' children' hwithin
    cases hwithin with
    | self => exact fun child hchild => (h child hchild).1
    | child hc hin => exact (h _ hc).2 form' children' hin

mutual

/-- Data is settled: it has no open forms. -/
theorem isSettled_of_isData : ∀ n : Node, n.isData = true → ctx.IsSettled n
  | .node form children, h => by
      obtain ⟨hform, hchildren⟩ := Node.isData_node_iff.mp h
      refine ctx.isSettled_node_iff.mpr (fun child hchild => ⟨?_, ?_⟩)
      · exact ctx.job?_of_closed (Node.isOpen_of_isData hform) child
      · exact isSettled_of_isData_child children hchildren child hchild

theorem isSettled_of_isData_child :
    ∀ ns : List Node, (∀ n ∈ ns, n.isData = true) → ∀ n ∈ ns, ctx.IsSettled n
  | [], _, _, hn => nomatch hn
  | m :: rest, h, n, hn => by
      rcases List.mem_cons.mp hn with heq | hrest
      · rw [heq]
        exact isSettled_of_isData m (h m List.mem_cons_self)
      · exact isSettled_of_isData_child rest (fun k hk => h k (List.mem_cons_of_mem _ hk)) n hrest

end

/-! ## What is written in place of a declaration -/

/-- A definition is a settled declarator, and requires no module itself. -/
theorem isSettled_declarator {d : Definition} (h : d.value.isData = true)
    (head : DeclarationHead) :
    ctx.job? (.declaration head) d.declarator = none ∧ ctx.IsSettled d.declarator := by
  constructor
  · have hsource : requireSource? d.declarator.init = none :=
      Node.requireSource?_of_isData h
    rw [job?, required?, hsource]
    rfl
  · refine ctx.isSettled_node_iff.mpr (fun child hchild => ⟨rfl, ?_⟩)
    rcases List.mem_cons.mp hchild with rfl | hvalue
    · exact ctx.isSettled_node_iff.mpr (fun _ hc => nomatch hc)
    · rw [List.mem_singleton.mp hvalue]
      exact ctx.isSettled_of_isData _ h

/-- **What is written for a job is settled**, in the place of the child that had the job. -/
theorem isSettled_code {form : Form} {child : Node} {job : Job} {ds : List Definition}
    (hjob : ctx.job? form child = some job) (hds : ctx.definitions job = .ok ds) :
    ∀ n ∈ job.code ds, ctx.job? form n = none ∧ ctx.IsSettled n := by
  obtain ⟨value, -, hshape⟩ := ctx.definitions_eq_ok_iff.mp hds
  have hdata := Definition.isData_ofShape hshape
  intro n hn
  -- a declarator stands for a declarator, and a declaration of its own for an import
  cases form with
  | declaration head =>
      obtain ⟨⟨module, shape⟩, -, rfl⟩ := Option.map_eq_some_iff.mp hjob
      obtain ⟨d, hd, rfl⟩ := List.mem_map.mp hn
      exact ctx.isSettled_declarator (hdata d hd) head
  | moduleBody =>
      obtain ⟨childForm, attributes⟩ := child
      cases childForm with
      | importItem decl =>
          obtain ⟨-, -, rfl⟩ := ctx.importJob?_eq_some_iff.mp hjob
          obtain ⟨d, hd, rfl⟩ := List.mem_map.mp hn
          refine ⟨rfl, ctx.isSettled_node_iff.mpr (fun c hc => ?_)⟩
          rw [List.mem_singleton.mp hc]
          exact ctx.isSettled_declarator (hdata d hd) Definition.constantHead
      | _ => exact nomatch hjob
  | _ => exact nomatch hjob

/-! ## After every job is done -/

/-- **Every job of a tree can be done.** -/
def CanSettle (n : Node) : Prop :=
  ∀ form children, Node.Within (.node form children) n →
    ∀ child ∈ children, ∀ job, ctx.job? form child = some job →
      ∃ ds, ctx.definitions job = .ok ds

/-- A child without job has none after everything in it was replaced. -/
theorem job?_inlined_eq_none {form : Form} {child : Node} (h : ctx.job? form child = none) :
    ctx.job? form (ctx.inlined child) = none := by
  cases form with
  | declaration head =>
      have hsketch : (ctx.inlined child).sketch = child.sketch := by
        rw [← ctx.inlineAt_all, ctx.sketch_inlineAt]
      have hjobs := ctx.job?_of_sketch_eq head hsketch
      rw [h, Option.map_none, Option.map_eq_none_iff] at hjobs
      exact hjobs
  | moduleBody =>
      obtain ⟨childForm, children⟩ := child
      cases childForm with
      | importItem decl => exact h
      | _ => rfl
  | _ => rfl

mutual

/-- **A tree is settled once all its jobs are done.** -/
theorem isSettled_inlined : ∀ n : Node, ctx.CanSettle n → ctx.IsSettled (ctx.inlined n)
  | .node form children, h => by
      rw [inlined, ctx.isSettled_node_iff]
      refine isSettled_inlinedAll form children (h form children .self) ?_
      intro child hchild form' children' hwithin
      exact h form' children' (.child hchild hwithin)

theorem isSettled_inlinedAll (form : Form) :
    ∀ children : List Node,
      (∀ child ∈ children, ∀ job, ctx.job? form child = some job →
        ∃ ds, ctx.definitions job = .ok ds) →
      (∀ child ∈ children, ctx.CanSettle child) →
      ∀ n ∈ ctx.inlinedAll form children, ctx.job? form n = none ∧ ctx.IsSettled n
  | [], _, _, _, hn => nomatch hn
  | child :: rest, hjobs, hbelow, n, hn => by
      rw [inlinedAll, List.mem_append] at hn
      rcases hn with hhere | hrest
      · rw [replacement?] at hhere
        cases hjob : ctx.job? form child with
        | none =>
            rw [hjob] at hhere
            rw [List.mem_singleton.mp hhere]
            exact ⟨ctx.job?_inlined_eq_none hjob,
              isSettled_inlined child (hbelow child List.mem_cons_self)⟩
        | some job =>
            obtain ⟨ds, hds⟩ := hjobs child List.mem_cons_self job hjob
            simp only [hjob, hds, Option.getD_some] at hhere
            exact ctx.isSettled_code hjob hds n hhere
      · exact isSettled_inlinedAll form rest
          (fun c hc => hjobs c (List.mem_cons_of_mem _ hc))
          (fun c hc => hbelow c (List.mem_cons_of_mem _ hc)) n hrest

end

/-- In a program whose stops all pass every job can be done. -/
theorem canSettle_of_allPass {program : Node} (h : ctx.AllPass program.stops) :
    ctx.CanSettle program := by
  intro form children hwithin child hchild job hjob
  obtain ⟨s, hs, hmem⟩ := List.mem_flatMap.mp (ctx.mem_jobOrder_of_within hwithin hchild hjob)
  exact ctx.verdict_eq_none_iff.mp (h s hs) job hmem

/-! ## A run over a settled tree -/

/-- The stops of a settled tree have no jobs. -/
theorem jobOrder_of_isSettled {n : Node} (h : ctx.IsSettled n) : ctx.jobOrder n = [] := by
  rw [List.eq_nil_iff_forall_not_mem]
  intro job hmem
  obtain ⟨task, hholds, hasks⟩ := ctx.mem_jobOrder_iff.mp hmem
  have hjob := ctx.mem_jobs_iff.mpr hasks
  cases hholds with
  | @declaration head declarators hwithin =>
      obtain ⟨d, hd, hsome⟩ := List.mem_filterMap.mp hjob
      rw [h _ _ hwithin d hd] at hsome
      cases hsome
  | @importing items attributes decl hwithin hmem =>
      have hnone : ctx.importJob? decl = none := h _ _ hwithin _ hmem
      rw [jobs, hnone] at hjob
      cases hjob

mutual

/-- Doing every job of a settled tree changes nothing. -/
theorem inlined_of_isSettled : ∀ n : Node, ctx.IsSettled n → ctx.inlined n = n
  | .node form children, h => by
      rw [inlined, inlinedAll_of_isSettled form children (ctx.isSettled_node_iff.mp h)]

theorem inlinedAll_of_isSettled (form : Form) :
    ∀ children : List Node,
      (∀ child ∈ children, ctx.job? form child = none ∧ ctx.IsSettled child) →
      ctx.inlinedAll form children = children
  | [], _ => rfl
  | child :: rest, h => by
      obtain ⟨⟨hjob, hchild⟩, hrest⟩ := List.forall_mem_cons.mp h
      rw [inlinedAll, replacement?, hjob, inlined_of_isSettled child hchild,
        inlinedAll_of_isSettled form rest hrest]
      rfl

end

/-- **A run leaves a settled tree as it is**, succeeds and reads nothing. -/
theorem run_of_isSettled {n : Node} (h : ctx.IsSettled n) :
    (ctx.run n).1 = n ∧ (ctx.run n).2.outcome = .ok () ∧ (ctx.run n).2.reads = [] := by
  have hnone : ∀ s ∈ n.stops, ctx.jobs s.task = [] :=
    List.flatMap_eq_nil_iff.mp (ctx.jobOrder_of_isSettled h)
  have hpass : ctx.AllPass n.stops := by
    intro s hs
    rw [verdict, hnone s hs]
    rfl
  refine ⟨?_, (ctx.outcome_run_eq_ok_iff n).mpr hpass, ?_⟩
  · rw [ctx.run_of_allPass hpass, ctx.inlined_of_isSettled n h]
  · rw [ctx.reads_run, ctx.jobOrder_of_isSettled h]
    rfl

/-- What a tree asks for depends on the matcher alone. -/
theorem IsSettled.of_matcher_eq {ctx other : Context} {n : Node} (h : ctx.IsSettled n)
    (hmatcher : other.matcher = ctx.matcher) : other.IsSettled n := by
  have hjob : ∀ form child, other.job? form child = ctx.job? form child := by
    intro form child
    simp only [job?, required?, importJob?, hmatcher]
  intro form children hwithin child hchild
  rw [hjob]
  exact h form children hwithin child hchild

/-- **The output of a successful run is a fixed point**, whatever the files are: a second run with
    the same matcher, in any file and with any files to read, succeeds, leaves every node of the
    output as it is, and reads nothing. -/
theorem run_output_is_fixed_point (program : Node) (other : Context)
    (hok : (ctx.run program).2.outcome = .ok ()) (hmatcher : other.matcher = ctx.matcher) :
    (other.run (ctx.run program).1).2.outcome = .ok () ∧
    (other.run (ctx.run program).1).1 = (ctx.run program).1 ∧
    (other.run (ctx.run program).1).2.reads = [] := by
  have hpass : ctx.AllPass program.stops := (ctx.outcome_run_eq_ok_iff program).mp hok
  have hsettled : ctx.IsSettled (ctx.run program).1 := by
    rw [ctx.run_of_allPass hpass]
    exact ctx.isSettled_inlined program (ctx.canSettle_of_allPass hpass)
  obtain ⟨htree, houtcome, hreads⟩ := other.run_of_isSettled (hsettled.of_matcher_eq hmatcher)
  exact ⟨houtcome, htree, hreads⟩

end Context

/-! ## A run and a second one -/

/-- A module with a data import, and a `require` nested in a function of a declarator. -/
def nestedModule : Node :=
  .node .moduleBody
    [.node (.importItem
        ⟨[.default ⟨"w", 0, .none, false⟩, .star ⟨"v", 0, .none, false⟩], "a.json", false,
          .evaluation, ⟨1, 2⟩⟩) [],
      .node (.declaration ⟨.constant, false, 0, ⟨3, 9⟩⟩)
        [.declarator false (.binding ⟨⟨"f", 0, .none, false⟩, none⟩)
          (.node .arrow
            [.node .parameters [],
              .node .block [.node (.declaration ⟨.blockScoped, false, 0, ⟨4, 8⟩⟩)
                [.declarator false (.binding ⟨⟨"x", 0, .none, false⟩, none⟩)
                  (.node .call [.reference ⟨"require", 0, .none, false⟩, .text "a.json"])]]])]]

/-- Every file holds the number one. -/
def onesEverywhere : Context := ⟨⟨"", .empty⟩, some "src/x.js", fun _ => .ok "1"⟩

/-- No file is there. -/
def filesNowhere : Context := ⟨⟨"", .empty⟩, none, fun _ => .error .missing⟩

/-- What the first run makes of `nestedModule` needs no file any more. -/
theorem nestedModule_settles :
    (onesEverywhere.run nestedModule).2.outcome = .ok () ∧
    (filesNowhere.run (onesEverywhere.run nestedModule).1).2.outcome = .ok () ∧
    (filesNowhere.run (onesEverywhere.run nestedModule).1).1
      = (onesEverywhere.run nestedModule).1 ∧
    (filesNowhere.run (onesEverywhere.run nestedModule).1).2.reads = [] := by
  have hok : (onesEverywhere.run nestedModule).2.outcome = .ok () := rfl
  exact ⟨hok, onesEverywhere.run_output_is_fixed_point nestedModule filesNowhere hok rfl⟩

end Inlay
