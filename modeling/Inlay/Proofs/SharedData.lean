import Inlay.Proofs.Bindings
import Inlay.Proofs.Heap

/-!
# Names that share the data of a module

Behind a name for all data, an import has a name for the module itself or names in braces. The data
are **written once**, for the first name. The others take them from there: the name for the module
holds what the first name holds, and each name in braces holds what a read of its key off the first
name gives, then and after all declarations.

* `evalIn_member`: one read; `declareAll_reads`: a run of reads, which leaves the heap and all other
  names as they are.
* `declareAll_whole_and_star`, `declareAll_whole_and_reads`: the definitions of both forms.
* `Named.ofImport_importBehind`: the shape of an import with braces, its keys plain or quoted.
* `EmbeddedOnce`: the data stand once in the code, and once in the heap.
* `mixed_imports_share_data`: both forms of imports.
-/

namespace Inlay

open Code Json

section

variable {inherited : Heap → Held → String → Held}

/-! ## Reads off a name -/

/-- Off what an object literal evaluates to, every key can be read. -/
theorem Heap.exists_read_of_evalIn_object {names : List (Name × Held)} {members : List Node}
    {heap new : Heap} {x : Held}
    (h : evalIn inherited names (.node .object members) heap = some (x, new)) (key : String) :
    ∃ y, new.read inherited x key = some y := by
  rw [evalIn] at h
  cases hmembers : evalMembersIn inherited names members .empty heap with
  | none =>
      rw [hmembers] at h
      cases h
  | some r =>
      rw [hmembers] at h
      obtain ⟨rfl, rfl⟩ := Prod.mk.inj (Option.some.inj h)
      exact ⟨_, Heap.read_of_object inherited (Heap.getElem?_allocate r.2 _) key⟩

/-- The use of a name gives what it holds. -/
theorem evalIn_reference {names : List (Name × Held)} {object : Ident} {x : Held}
    (h : names.lookup object.key = some x) (heap : Heap) :
    evalIn inherited names (.reference object) heap = some (x, heap) := by
  rw [evalIn, h]
  rfl

/-- A member read, by a plain or a quoted key, gives what is read off the name. -/
theorem evalIn_member {names : List (Name × Held)} {object : Ident} {x y : Held} {heap : Heap}
    {key : Key} (hobject : names.lookup object.key = some x)
    (hread : heap.read inherited x key.value = some y) :
    evalIn inherited names (Literal.member object key) heap = some (y, heap) := by
  have hmember : evalIn inherited names (Literal.member object key) heap
      = (heap.read inherited x key.value).bind fun y => some (y, heap) := by
    cases key with
    | name name =>
        rw [Literal.member, evalIn, evalIn_reference hobject]
        rfl
    | text value =>
        rw [Literal.member, evalIn, evalIn_reference hobject]
        rfl
  rw [hmember, hread]
  rfl

/-- **A run of reads.** The heap stays as it is, and so do the names that are not bound. Each name
    that is bound holds what is read off the object, because no later one has the same name. -/
theorem declareAll_reads {object : Ident} {x : Held} {heap : Heap}
    (hread : ∀ key, ∃ y, heap.read inherited x key = some y) :
    ∀ (picks : List Pick) (names : List (Name × Held)), names.lookup object.key = some x →
      (object.key :: picks.map fun p => p.target.key).Nodup →
      ∃ after, declareAll inherited ((Definition.ofReads object picks).map Definition.constant)
          ⟨heap, names⟩ = some ⟨heap, after⟩ ∧
        (∀ name, name ∉ picks.map (fun p => p.target.key) →
          after.lookup name = names.lookup name) ∧
        ∀ p ∈ picks, after.lookup p.target.key = heap.read inherited x p.key.value
  | [], names, _, _ => ⟨names, rfl, fun _ _ => rfl, nofun⟩
  | p :: rest, names, hobject, hnodup => by
      obtain ⟨y, hy⟩ := hread p.key.value
      rw [List.map_cons, List.nodup_cons, List.mem_cons, not_or, List.nodup_cons] at hnodup
      obtain ⟨⟨hne, hrest⟩, hp, hnodup⟩ := hnodup
      -- the binding of `p` stands in front of that of `object`, under another name
      have hnext : ((p.target.key, y) :: names).lookup object.key = some x := by
        rw [List.lookup_cons, beq_false_of_ne hne]
        exact hobject
      obtain ⟨after, hrun, hframe, hafter⟩ :=
        declareAll_reads hread rest ((p.target.key, y) :: names) hnext
          (List.nodup_cons.mpr ⟨hrest, hnodup⟩)
      refine ⟨after, ?_, ?_, ?_⟩
      · rw [← hrun]
        exact declareAll_constant_cons inherited (evalIn_member hobject hy)
          (Definition.ofReads object rest)
      · intro name hname
        rw [List.map_cons, List.mem_cons, not_or] at hname
        rw [hframe name hname.2, List.lookup_cons, beq_false_of_ne hname.1]
      · intro q hq
        rcases List.mem_cons.mp hq with rfl | hq
        · rw [hframe _ hp, List.lookup_cons_self, hy]
        · exact hafter q hq

/-! ## Definitions that share data -/

/-- A name for all data, and one for the module: both hold the same. -/
theorem declareAll_whole_and_star (st : Store) (target star : Ident) (v : Value) : ∃ x heap,
    WrittenOnce v x st.heap heap ∧
    declareAll inherited
        ([⟨target.binding, Literal.embed v⟩, ⟨star.binding, .reference target⟩].map
          Definition.constant) st
      = some ⟨heap, (star.key, x) :: (target.key, x) :: st.names⟩ := by
  obtain ⟨x, heap, heval, hwritten⟩ := Literal.evalIn_embed inherited st.names v st.heap
  have hreference : evalIn inherited ((target.key, x) :: st.names) (.reference target) heap
      = some (x, heap) := evalIn_reference List.lookup_cons_self heap
  refine ⟨x, heap, hwritten, ?_⟩
  rw [declareAll_constant_cons inherited heval]
  exact declareAll_constant_cons inherited hreference []

/-- A name for all data, and names that read off it: all of them hold in the end what can be read
    there in the end. -/
theorem declareAll_whole_and_reads (st : Store) (target : Ident) (entries : Entries)
    (picks : List Pick) (hnodup : (target.key :: picks.map fun p => p.target.key).Nodup) :
    ∃ x heap names, WrittenOnce (.object entries) x st.heap heap ∧
      declareAll inherited
          ((⟨target.binding, Literal.embed (.object entries)⟩ ::
            Definition.ofReads target picks).map Definition.constant) st
        = some ⟨heap, names⟩ ∧
      names.lookup target.key = some x ∧
      ∀ p ∈ picks, ∃ y, names.lookup p.target.key = some y ∧
        heap.read inherited x p.key.value = some y := by
  obtain ⟨x, heap, heval, hwritten⟩ :=
    Literal.evalIn_embed inherited st.names (.object entries) st.heap
  have hread := Heap.exists_read_of_evalIn_object heval
  obtain ⟨names, hrun, hframe, hnames⟩ :=
    declareAll_reads hread picks ((target.key, x) :: st.names) List.lookup_cons_self hnodup
  refine ⟨x, heap, names, hwritten, ?_, ?_, ?_⟩
  · rw [declareAll_constant_cons inherited heval]
    exact hrun
  · rw [hframe target.key (List.nodup_cons.mp hnodup).1, List.lookup_cons_self]
  · intro p hp
    obtain ⟨y, hy⟩ := hread p.key.value
    exact ⟨y, (hnames p hp).trans hy, hy⟩

end

/-! ## Imports with braces behind a name -/

/-- **Names in braces**, each with the key it is imported by if it is another. -/
abbrev Named := List (Ident × Option Key)

namespace Named

/-- The key of a name: its own, or the one it is imported by. -/
def key (p : Ident × Option Key) : Key := p.2.getD (.name p.1.name)

/-- An import of all data as `target`, and of the names in braces. -/
def importBehind (target : Ident) (named : Named) (source : String) (span : Span) : Import :=
  ⟨.default target :: named.map fun p => .named p.1 p.2 false, source, false, .evaluation, span⟩

theorem picksOf?_map (named : Named) :
    Shape.picksOf? (named.map fun p => .named p.1 p.2 false)
      = some (named.map fun p => ⟨key p, p.1⟩) := by
  induction named with
  | nil => rfl
  | cons p rest ih =>
      have hpick : Shape.pickOf? (.named p.1 p.2 false) = some ⟨key p, p.1⟩ := by
        rcases p with ⟨target, _ | k⟩ <;> rfl
      exact mapM_cons_eq_some_iff.mpr ⟨_, _, hpick, ih, rfl⟩

/-- Its shape has a name for all data and one pick for every name in braces. -/
theorem ofImport_importBehind {named : Named} (h : named ≠ []) (target : Ident) (source : String)
    (span : Span) :
    Shape.ofImport (importBehind target named source span)
      = .defaultAndNamed target (named.map fun p => ⟨key p, p.1⟩) := by
  have hpicks := picksOf?_map named
  obtain ⟨p, rest, rfl⟩ := List.exists_cons_of_ne_nil h
  have hspecifiers : Shape.ofImport (importBehind target (p :: rest) source span)
      = Shape.ofSpecifiers (importBehind target (p :: rest) source span).specifiers := rfl
  rw [hspecifiers]
  simp only [importBehind, List.map_cons] at hpicks ⊢
  rw [Shape.ofSpecifiers, hpicks]
  all_goals exact nofun

end Named

/-! ## Shared data -/

/-- **Data that are embedded once**: the literal is the value of the first definition and no part of
    the others, and the definitions have written the data once. -/
structure EmbeddedOnce (v : Value) (x : Held) (ds : List Definition) (old new : Heap) : Prop where
  code : ∃ d rest, ds = d :: rest ∧ d.value = Literal.embed v ∧
    ∀ e ∈ rest, ¬ Node.Within (Literal.embed v) e.value
  heap : WrittenOnce v x old new

/-- A literal has a value where no name is bound, so it is no use of a name. -/
theorem Literal.embed_ne_reference (v : Value) (x : Ident) : embed v ≠ .reference x := by
  intro h
  obtain ⟨_, _, heval, -⟩ := evalIn_embed (fun _ _ _ => .undefined) [] v []
  rw [h] at heval
  exact nomatch heval

/-- No object literal is a part of a member read. -/
theorem Literal.not_within_member (members : List Node) (object : Ident) (key : Key) :
    ¬ Node.Within (.node .object members) (member object key) := by
  cases key <;> simp [member, Node.within_node_iff]

/-- **Imports share the data behind a name for all data.** Whatever is inherited and whatever the
    store holds before:

    * with a name for the module behind it, both names hold the same value, which is the same list
      or object if it is one;
    * with names in braces behind it, each of them holds what reading its key off the name for all
      data gives after all declarations, and two names with the same key hold the same.

    Both times the data are embedded once. -/
theorem mixed_imports_share_data (inherited : Heap → Held → String → Held) (st : Store)
    (target : Ident) (source module : String) (span : Span) :
    (∀ (star : Ident) (v : Value), ∃ ds after x,
      Definition.ofShape
          (Shape.ofImport
            ⟨[.default target, .star star], source, false, .evaluation, span⟩) v module
        = .ok ds ∧
      declareAll inherited (ds.map Definition.constant) st = some after ∧
      after.names.lookup target.key = some x ∧
      after.names.lookup star.key = some x ∧
      EmbeddedOnce v x ds st.heap after.heap) ∧
    (∀ (named : Named) (entries : Entries), named ≠ [] →
      (target.key :: named.map fun p => p.1.key).Nodup → ∃ ds after x,
      Definition.ofShape (Shape.ofImport (Named.importBehind target named source span))
          (.object entries) module
        = .ok ds ∧
      declareAll inherited (ds.map Definition.constant) st = some after ∧
      after.names.lookup target.key = some x ∧
      (∀ p ∈ named, ∃ y, after.names.lookup p.1.key = some y ∧
        after.heap.read inherited x (Named.key p).value = some y) ∧
      (∀ p ∈ named, ∀ q ∈ named, (Named.key p).value = (Named.key q).value →
        after.names.lookup p.1.key = after.names.lookup q.1.key) ∧
      EmbeddedOnce (.object entries) x ds st.heap after.heap) := by
  constructor
  · intro star v
    obtain ⟨x, heap, hwritten, hrun⟩ := declareAll_whole_and_star st target star v
    refine ⟨_, _, x, rfl, hrun, ?_, List.lookup_cons_self, ⟨_, _, rfl, rfl, ?_⟩, hwritten⟩
    · -- also when both have one name
      show List.lookup _ (_ :: _) = _
      rw [List.lookup_cons, List.lookup_cons_self]
      split <;> rfl
    · intro e he hwithin
      rw [List.mem_singleton.mp he] at hwithin
      rcases Node.within_node_iff.mp hwithin with heq | ⟨c, hc, -⟩
      · exact Literal.embed_ne_reference v target heq
      · exact nomatch hc
  · intro named entries hne hnodup
    have hpicks : (target.key ::
        (named.map fun p => (⟨Named.key p, p.1⟩ : Pick)).map fun p => p.target.key).Nodup := by
      rw [List.map_map]
      exact hnodup
    obtain ⟨x, heap, names, hwritten, hrun, htarget, hreads⟩ :=
      declareAll_whole_and_reads st target entries _ hpicks
    have hnamed : ∀ p ∈ named, ∃ y, names.lookup p.1.key = some y ∧
        heap.read inherited x (Named.key p).value = some y := by
      intro p hp
      exact hreads ⟨Named.key p, p.1⟩ (List.mem_map_of_mem hp)
    rw [Named.ofImport_importBehind hne]
    refine ⟨_, _, x, rfl, hrun, htarget, hnamed, ?_, ⟨_, _, rfl, rfl, ?_⟩, hwritten⟩
    · intro p hp q hq hkeys
      obtain ⟨y, hp, hy⟩ := hnamed p hp
      obtain ⟨z, hq, hz⟩ := hnamed q hq
      rw [hkeys] at hy
      exact hp.trans (hy.symm.trans (hz.trans hq.symm))
    · intro e he
      obtain ⟨p, -, rfl⟩ := List.mem_map.mp he
      exact Literal.not_within_member _ target p.key

/-- Three names for two keys. One of the keys is written in two ways. -/
def threeNames : Named :=
  [(⟨"x", 0, .none, false⟩, some (.name "a")), (⟨"y", 0, .none, false⟩, some (.text "b c")),
    (⟨"z", 0, .none, false⟩, some (.text "a"))]

/-- The list of the key `a` has one address, and both names for the key hold it. -/
theorem threeNames_share_list : ∃ ds after,
    Definition.ofShape
        (Shape.ofImport (Named.importBehind ⟨"d", 0, .none, false⟩ threeNames "./a.json" .none))
        (.object [("a", .array [.null]), ("b c", .bool true)]) "./a.json"
      = .ok ds ∧
    declareAll (fun _ _ _ => .undefined) (ds.map Definition.constant) ⟨[], []⟩ = some after ∧
    after.names.lookup ("x", 0) = some (.address 0) ∧
    after.names.lookup ("z", 0) = some (.address 0) ∧
    after.heap.length = 2 := by
  obtain ⟨ds, after, x, hds, hrun, -, -, hsame, honce⟩ :=
    (mixed_imports_share_data (fun _ _ _ => .undefined) ⟨[], []⟩ ⟨"d", 0, .none, false⟩
      "./a.json" "./a.json" .none).2 threeNames
      [("a", .array [.null]), ("b c", .bool true)] (by decide) (by decide)
  have hlist : after.names.lookup ("x", 0) = some (.address 0) := by
    cases hds
    cases hrun
    rfl
  refine ⟨ds, after, hds, hrun, hlist, ?_, ?_⟩
  · exact (hsame _ (.head _) _ (.tail _ (.tail _ (.head _))) rfl).symm.trans hlist
  · obtain ⟨cells, hcells, hcount⟩ := honce.heap.grows
    rw [hcells]
    exact hcount

end Inlay
