import Inlay.Code.Node
import Mathlib.Data.List.Nodup

/-!
# Stops of a walk

A walk over a tree **stops** at every declaration and at every import of a module body. A stop is
told apart from all others by its place, the way from the root to it. `Node.stops` lists the stops
in the order of the walk: what is below a node comes before the node itself, so a declaration comes
behind everything nested in it, and the imports of a module body come behind everything nested in
any of its items.

* `Within`: one node is part of another; `Holds`: a tree has a task somewhere, told without order.
* `exists_stop_iff_holds`: the stops of a tree are exactly the tasks that it holds.
* `nodup_places`: no place is listed twice.
-/

namespace Inlay

open Code

/-- **A place** in a tree: the number of the child that is entered, at each level from the root. -/
abbrev Place := List Nat

/-- **What a stop is about**: a declaration with its declarators, or an import. -/
inductive Task where
  | declaration (head : DeclarationHead) (declarators : List Node)
  | importing (decl : Import)

/-- The span of a declaration or of an import. -/
def Task.span : Task → Span
  | declaration head _ => head.span
  | importing decl => decl.span

/-- **A stop**: a task and its place. -/
structure Stop where
  place : Place
  task : Task

/-- A stop of the child number `i`, as a stop of its parent. -/
def Stop.inChild (i : Nat) (s : Stop) : Stop := ⟨i :: s.place, s.task⟩

@[simp] theorem Stop.inChild_place (i : Nat) (s : Stop) : (s.inChild i).place = i :: s.place := rfl

namespace Code.Node

/-! ## The order of the walk -/

/-- The stops at the imports among the items of a module body, from number `i` on. -/
def importStops : Nat → List Node → List Stop
  | _, [] => []
  | i, node (.importItem decl) _ :: rest => ⟨[i], .importing decl⟩ :: importStops (i + 1) rest
  | i, _ :: rest => importStops (i + 1) rest

/-- The stops at a node itself: at a declaration one, at a module body one for each import. -/
def ownStops (form : Form) (children : List Node) : List Stop :=
  match form with
  | .declaration head => [⟨[], .declaration head children⟩]
  | .moduleBody => importStops 0 children
  | _ => []

mutual

/-- **The stops of a tree**, in the order of the walk: first those below, then its own. -/
def stops : Node → List Stop
  | node form children => stopsAll 0 children ++ ownStops form children

/-- The stops of the children from number `i` on. -/
def stopsAll : Nat → List Node → List Stop
  | _, [] => []
  | i, n :: rest => (stops n).map (Stop.inChild i) ++ stopsAll (i + 1) rest

end

theorem stops_node (form : Form) (children : List Node) :
    stops (node form children) = stopsAll 0 children ++ ownStops form children := rfl

@[simp] theorem stopsAll_cons (i : Nat) (n : Node) (rest : List Node) :
    stopsAll i (n :: rest) = n.stops.map (Stop.inChild i) ++ stopsAll (i + 1) rest := rfl

/-! ## Tasks without order -/

/-- **One node is part of another**, or is it. -/
inductive Within (m : Node) : Node → Prop where
  | self : Within m m
  | child {form : Form} {children : List Node} {c : Node} :
      c ∈ children → Within m c → Within m (node form children)

/-- A part of a part is a part. -/
theorem Within.trans {l m n : Node} (hlm : Within l m) (hmn : Within m n) : Within l n := by
  induction hmn with
  | self => exact hlm
  | child hc _ ih => exact .child hc ih

/-- A part of a node is the node, or part of a child. -/
theorem within_node_iff {m : Node} {form : Form} {children : List Node} :
    Within m (node form children) ↔ m = node form children ∨ ∃ c ∈ children, Within m c := by
  constructor
  · intro h
    cases h with
    | self => exact .inl rfl
    | child hc hin => exact .inr ⟨_, hc, hin⟩
  · rintro (rfl | ⟨c, hc, hin⟩)
    · exact .self
    · exact .child hc hin

/-- The children of a part are parts. -/
theorem Within.of_mem_children {form : Form} {children : List Node} {c n : Node}
    (h : Within (node form children) n) (hc : c ∈ children) : Within c n :=
  (Within.child hc .self).trans h

/-- **The tasks that a tree holds**: every declaration in it, and every import that is an item of a
    module body in it. -/
inductive Holds (n : Node) : Task → Prop where
  | declaration {head : DeclarationHead} {declarators : List Node} :
      Within (node (.declaration head) declarators) n →
        Holds n (.declaration head declarators)
  | importing {items attributes : List Node} {decl : Import} :
      Within (node .moduleBody items) n → node (.importItem decl) attributes ∈ items →
        Holds n (.importing decl)

/-- A tree holds what its children hold. -/
theorem Holds.of_child {form : Form} {children : List Node} {c : Node} {task : Task}
    (hc : c ∈ children) (h : c.Holds task) : (node form children).Holds task := by
  cases h with
  | declaration hw => exact .declaration (.child hc hw)
  | importing hw hmem => exact .importing (.child hc hw) hmem

/-- The stops at imports are the imports of the list. -/
theorem exists_importStop_iff (items : List Node) (task : Task) (i : Nat) :
    (∃ s ∈ importStops i items, s.task = task) ↔
      ∃ decl attributes, node (.importItem decl) attributes ∈ items ∧
        task = .importing decl := by
  fun_induction importStops i items with
  | case1 => simp
  | case2 i decl attributes rest ih =>
      rw [List.exists_mem_cons_iff, ih]
      constructor
      · rintro (h | ⟨decl', attributes', hmem, h⟩)
        · exact ⟨decl, attributes, List.mem_cons_self, h.symm⟩
        · exact ⟨decl', attributes', List.mem_cons_of_mem _ hmem, h⟩
      · rintro ⟨decl', attributes', hmem, h⟩
        rcases List.mem_cons.mp hmem with heq | hrest
        · injection heq with hform _
          injection hform with hdecl
          exact Or.inl (by rw [h, hdecl])
        · exact Or.inr ⟨decl', attributes', hrest, h⟩
  | case3 i item rest hitem ih =>
      rw [ih]
      constructor
      · rintro ⟨decl, attributes, hmem, h⟩
        exact ⟨decl, attributes, List.mem_cons_of_mem _ hmem, h⟩
      · rintro ⟨decl, attributes, hmem, h⟩
        rcases List.mem_cons.mp hmem with heq | hrest
        · exact absurd heq.symm (hitem decl attributes)
        · exact ⟨decl, attributes, hrest, h⟩

/-- The own stops of a node are tasks that it holds. -/
theorem holds_of_mem_ownStops {form : Form} {children : List Node} {s : Stop}
    (h : s ∈ ownStops form children) : (node form children).Holds s.task := by
  cases form with
  | declaration head =>
      rw [List.mem_singleton.mp h]
      exact .declaration .self
  | moduleBody =>
      obtain ⟨decl, attributes, hmem, htask⟩ :=
        (exists_importStop_iff children s.task 0).mp ⟨s, h, rfl⟩
      rw [htask]
      exact .importing .self hmem
  | _ => exact nomatch h

mutual

/-- Every stop is a task that the tree holds. -/
theorem holds_of_mem_stops : ∀ (n : Node) (s : Stop), s ∈ n.stops → n.Holds s.task
  | node form children, s, h => by
      rcases List.mem_append.mp h with hbelow | hown
      · obtain ⟨c, hc, hholds⟩ := holds_of_mem_stopsAll children 0 s hbelow
        exact hholds.of_child hc
      · exact holds_of_mem_ownStops hown

/-- Every stop of children is a task that one of them holds. -/
theorem holds_of_mem_stopsAll :
    ∀ (ns : List Node) (i : Nat) (s : Stop), s ∈ stopsAll i ns → ∃ c ∈ ns, c.Holds s.task
  | [], _, _, h => nomatch h
  | n :: rest, i, s, h => by
      rcases List.mem_append.mp h with hhere | hrest
      · obtain ⟨t, ht, rfl⟩ := List.mem_map.mp hhere
        exact ⟨n, List.mem_cons_self, holds_of_mem_stops n t ht⟩
      · obtain ⟨c, hc, hholds⟩ := holds_of_mem_stopsAll rest (i + 1) s hrest
        exact ⟨c, List.mem_cons_of_mem _ hc, hholds⟩

end

/-- The stops of a child are stops among those of all children. -/
theorem exists_mem_stopsAll {children : List Node} {c : Node} (hc : c ∈ children) {s : Stop}
    (hs : s ∈ c.stops) (i : Nat) : ∃ t ∈ stopsAll i children, t.task = s.task := by
  induction children generalizing i with
  | nil => exact nomatch hc
  | cons n rest ih =>
      rcases List.mem_cons.mp hc with rfl | hrest
      · exact ⟨s.inChild i, List.mem_append_left _ (List.mem_map_of_mem hs), rfl⟩
      · obtain ⟨t, ht, htask⟩ := ih hrest (i + 1)
        exact ⟨t, List.mem_append_right _ ht, htask⟩

/-- The stops of a part of a tree are stops of the tree. -/
theorem Within.exists_stop {m n : Node} (h : Within m n) {s : Stop} (hs : s ∈ m.stops) :
    ∃ t ∈ n.stops, t.task = s.task := by
  induction h with
  | self => exact ⟨s, hs, rfl⟩
  | child hc _ ih =>
      obtain ⟨t, ht, htask⟩ := ih
      obtain ⟨u, hu, hutask⟩ := exists_mem_stopsAll hc ht 0
      exact ⟨u, List.mem_append_left _ hu, hutask.trans htask⟩

/-- **The stops of a tree are exactly the tasks that it holds.** -/
theorem exists_stop_iff_holds {n : Node} {task : Task} :
    (∃ s ∈ n.stops, s.task = task) ↔ n.Holds task := by
  constructor
  · rintro ⟨s, hs, rfl⟩
    exact holds_of_mem_stops n s hs
  · intro h
    cases h with
    | declaration hw => exact hw.exists_stop (List.mem_append_right _ List.mem_cons_self)
    | @importing items attributes decl hw hmem =>
        obtain ⟨s, hs, htask⟩ := (exists_importStop_iff items (.importing decl) 0).mpr
          ⟨decl, attributes, hmem, rfl⟩
        obtain ⟨t, ht, htt⟩ := hw.exists_stop (List.mem_append_right _ hs)
        exact ⟨t, ht, htt.trans htask⟩

/-! ## Places -/

/-- A stop at an import stands at the number of its item. -/
theorem exists_of_mem_importStops {items : List Node} {i : Nat} {s : Stop}
    (h : s ∈ importStops i items) :
    ∃ k decl attributes, items[k]? = some (node (.importItem decl) attributes) ∧
      s.place = [i + k] := by
  fun_induction importStops i items with
  | case1 => exact nomatch h
  | case2 i decl attributes rest ih =>
      rcases List.mem_cons.mp h with rfl | hrest
      · exact ⟨0, decl, attributes, rfl, rfl⟩
      · obtain ⟨k, decl', attributes', hk, hplace⟩ := ih hrest
        exact ⟨k + 1, decl', attributes', hk, by rw [hplace, Nat.add_right_comm, Nat.add_assoc]⟩
  | case3 i item rest _ ih =>
      obtain ⟨k, decl, attributes, hk, hplace⟩ := ih h
      exact ⟨k + 1, decl, attributes, hk, by rw [hplace, Nat.add_right_comm, Nat.add_assoc]⟩

/-- Every import among the items has its stop. -/
theorem mem_importStops {items attributes : List Node} {k : Nat} {decl : Import} (i : Nat)
    (h : items[k]? = some (node (.importItem decl) attributes)) :
    ⟨[i + k], .importing decl⟩ ∈ importStops i items := by
  induction k generalizing items i with
  | zero =>
      obtain ⟨rest, rfl⟩ := List.head?_eq_some_iff.mp (List.head?_eq_getElem? ▸ h)
      exact List.mem_cons_self
  | succ k ih =>
      cases items with
      | nil => exact nomatch h
      | cons item rest =>
          have hrest := ih (i + 1) (List.getElem?_cons_succ.symm.trans h)
          rw [Nat.add_right_comm] at hrest
          obtain ⟨form, children⟩ := item
          cases form with
          | importItem other => exact List.mem_cons_of_mem _ hrest
          | _ => exact hrest

/-- A stop among those of all children is a stop of one child, at its number. -/
theorem exists_of_mem_stopsAll {children : List Node} {i : Nat} {s : Stop}
    (h : s ∈ stopsAll i children) :
    ∃ (k : Nat) (c : Node) (t : Stop),
      children[k]? = some c ∧ t ∈ c.stops ∧ s = t.inChild (i + k) := by
  induction children generalizing i with
  | nil => exact nomatch h
  | cons n rest ih =>
      rcases List.mem_append.mp h with hhere | hrest
      · obtain ⟨t, ht, rfl⟩ := List.mem_map.mp hhere
        exact ⟨0, n, t, rfl, ht, rfl⟩
      · obtain ⟨k, c, t, hk, ht, rfl⟩ := ih hrest
        exact ⟨k + 1, c, t, hk, ht, by rw [Nat.add_right_comm, Nat.add_assoc]⟩

/-- No stop among those of all children stands at the root. -/
theorem place_ne_nil_of_mem_stopsAll {children : List Node} {i : Nat} {s : Stop}
    (h : s ∈ stopsAll i children) : s.place ≠ [] := by
  obtain ⟨k, c, t, -, -, rfl⟩ := exists_of_mem_stopsAll h
  exact nofun

/-- The imports of a module body stand at places of their own. -/
theorem nodup_places_importStops (items : List Node) (i : Nat) :
    ((importStops i items).map Stop.place).Nodup := by
  fun_induction importStops i items with
  | case1 => exact List.nodup_nil
  | case2 i decl attributes rest ih =>
      rw [List.map_cons, List.nodup_cons]
      refine ⟨?_, ih⟩
      intro hmem
      obtain ⟨s, hs, hplace⟩ := List.mem_map.mp hmem
      obtain ⟨k, -, -, -, hk⟩ := exists_of_mem_importStops hs
      rw [hk] at hplace
      injection hplace with hhead
      omega
  | case3 i item rest _ ih => exact ih

/-- The own stops of a node stand at places of their own. -/
theorem nodup_places_ownStops (form : Form) (children : List Node) :
    ((ownStops form children).map Stop.place).Nodup := by
  cases form with
  | declaration head => exact List.nodup_singleton _
  | moduleBody => exact nodup_places_importStops children 0
  | _ => exact List.nodup_nil

/-- No own stop of a node stands where one below it does: what is below an import stands deeper than
    the import. -/
theorem place_ne_of_mem_ownStops {form : Form} {children : List Node} {s t : Stop}
    (hs : s ∈ ownStops form children) (ht : t ∈ stopsAll 0 children) : s.place ≠ t.place := by
  cases form with
  | declaration head =>
      rw [List.mem_singleton.mp hs]
      exact (place_ne_nil_of_mem_stopsAll ht).symm
  | moduleBody =>
      obtain ⟨k, decl, attributes, hk, hplace⟩ := exists_of_mem_importStops hs
      obtain ⟨k', c, u, hk', hu, rfl⟩ := exists_of_mem_stopsAll ht
      intro heq
      rw [hplace, Stop.inChild_place] at heq
      -- the same number, so the stop is below the import itself, where none is at the root
      injection heq with hhead htail
      obtain rfl : k = k' := by omega
      obtain rfl : node (.importItem decl) attributes = c := Option.some.inj (hk.symm.trans hk')
      rw [stops_node, show ownStops (.importItem decl) attributes = [] from rfl,
        List.append_nil] at hu
      exact place_ne_nil_of_mem_stopsAll hu htail.symm
  | _ => exact nomatch hs

mutual

/-- **No place is listed twice** among the stops of a tree. -/
theorem nodup_places : ∀ n : Node, (n.stops.map Stop.place).Nodup
  | node form children => by
      rw [stops_node, List.map_append, List.nodup_append]
      refine ⟨nodup_places_stopsAll children 0, nodup_places_ownStops form children, ?_⟩
      intro p hp q hq heq
      obtain ⟨t, ht, rfl⟩ := List.mem_map.mp hp
      obtain ⟨s, hs, rfl⟩ := List.mem_map.mp hq
      exact place_ne_of_mem_ownStops hs ht heq.symm

/-- No place is listed twice among the stops of children. -/
theorem nodup_places_stopsAll :
    ∀ (ns : List Node) (i : Nat), ((stopsAll i ns).map Stop.place).Nodup
  | [], _ => List.nodup_nil
  | n :: rest, i => by
      rw [stopsAll_cons, List.map_append, List.nodup_append]
      refine ⟨?_, nodup_places_stopsAll rest (i + 1), ?_⟩
      · rw [List.map_map, show Stop.place ∘ Stop.inChild i = List.cons i ∘ Stop.place from rfl,
          ← List.map_map]
        exact (nodup_places n).map (List.cons_injective)
      · intro p hp q hq heq
        obtain ⟨s, hs, rfl⟩ := List.mem_map.mp hp
        obtain ⟨t, ht, rfl⟩ := List.mem_map.mp hq
        obtain ⟨u, -, rfl⟩ := List.mem_map.mp hs
        obtain ⟨k, c, w, -, -, rfl⟩ := exists_of_mem_stopsAll ht
        injection heq with hhead
        omega

end

end Code.Node

end Inlay
