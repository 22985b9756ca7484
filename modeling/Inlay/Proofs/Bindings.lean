import Inlay.Definition
import Inlay.Proofs.Literals
import Inlay.Proofs.Sketch

/-!
# A replacement binds what the declaration binds

The definitions that stand in place of an import or of a `require` bind the same names, in the same
order, to the same data as the declaration does by itself. What a declaration binds **by itself** is
told on its own code, pattern by pattern and specifier by specifier, and knows nothing of shapes.

* `bindPattern`, `Specifier.boundTo?`: the reference bindings of patterns and of specifiers.
* `Source.bindings`: those of a declaration that is replaced.
* `execute_map`: definitions whose values depend on no name are executed one by one.
* `execute_ofReads`: definitions that read off an earlier name, which no later one hides.
* `bindsElements_of_slotsOf?`: positions, holes and the rest of a list pattern.
* `replacement_binds_alike`: all eight shapes.
-/

namespace Inlay

open Code Json

/-! ## What a declaration binds by itself -/

/-- The own member of an object, or undefined. -/
def Datum.member? (key : String) (d : Datum) : Option Datum := d.read (fun _ => .undefined) key

mutual

/-- **The bindings of a pattern** when a datum is assigned to it. -/
def bindPattern : Node → Datum → Option Bindings
  | .node (.binding target) [], d => some [(target.ident.key, d)]
  | .node (.objectPattern _) entries, d => bindEntries entries d
  | .node (.listPattern _) elements, d => do bindElements elements 0 (← d.elements?)
  | _, _ => none

/-- The entries of an object pattern: each takes the member of its key. -/
def bindEntries : List Node → Datum → Option Bindings
  | [], _ => some []
  | .node (.fieldPattern target) [.node .absent []] :: rest, d => do
    let here ← d.member? target.ident.name
    return (target.ident.key, here) :: (← bindEntries rest d)
  | .node .entryPattern [.node (.nameKey key) [], pattern] :: rest, d => do
    let here ← bindPattern pattern (← d.member? key)
    return here ++ (← bindEntries rest d)
  | _ :: _, _ => none

/-- The elements of a list pattern from a position on: a hole takes nothing, a rest at the end takes
    the list of what is left, and every other one takes the element at its position. -/
def bindElements : List Node → Nat → List Datum → Option Bindings
  | [], _, _ => some []
  | .node .absent [] :: rest, i, ds => bindElements rest (i + 1) ds
  | [.node (.restPattern _) [pattern]], i, ds =>
    bindPattern pattern (.list ((ds.drop i).map some))
  | pattern :: rest, i, ds => do
    let here ← bindPattern pattern (ds[i]?.getD .undefined)
    return here ++ (← bindElements rest (i + 1) ds)

end

/-- **The binding of a specifier**: all data, or the member of its key. -/
def Code.Specifier.boundTo? (d : Datum) : Specifier → Option (Name × Datum)
  | .default target => some (target.key, d)
  | .star target => some (target.key, d)
  | .named target imported _ =>
    (d.member? ((imported.map Key.value).getD target.name)).map fun x => (target.key, x)

/-- **A declaration that loads a module**: an import, or a declarator with a `require`. -/
inductive Source where
  | imported (decl : Import)
  | required (declarator : Node)

namespace Source

/-- Its shape. -/
def shape (accepts : String → Bool) : Source → Shape
  | imported decl => Shape.ofImport decl
  | required declarator => Shape.ofDeclarator accepts declarator

/-- **What it binds by itself** when its module has the data `d`. -/
def bindings (d : Datum) : Source → Option Bindings
  | imported decl => decl.specifiers.mapM (Specifier.boundTo? d)
  | required (.declarator _ target _) => bindPattern target d
  | required _ => none

/-- The names of an import that starts with a default are distinct. -/
def LocalsDistinct : Source → Prop
  | imported decl =>
    ∀ target rest, decl.specifiers = .default target :: rest →
      (decl.specifiers.map fun s => s.target.key).Nodup
  | required _ => True

end Source

/-! ## Data of JSON values -/

namespace Datum

/-- The own members of an object are its entries. -/
theorem lookup_ofEntries (entries : Entries) (key : String) :
    (ofEntries entries).lookup key = (entries.get? key).map ofJson := by
  induction entries with
  | nil => rfl
  | cons entry rest ih =>
      obtain ⟨k, v⟩ := entry
      rw [ofEntries, Entries.get?, List.lookup_cons, List.find?_cons]
      by_cases h : k = key
      · rw [h, beq_self_eq_true]
        rfl
      · rw [beq_false_of_ne h, beq_false_of_ne (Ne.symm h)]
        exact ih

/-- The own member of a key, or undefined, is the value of the key, if there is one. -/
theorem getD_lookup_ofEntries (entries : Entries) (key : String) :
    ((ofEntries entries).lookup key).getD undefined = ofOption (entries.get? key) := by
  rw [lookup_ofEntries]
  cases entries.get? key <;> rfl

/-- A member read off an object takes the value of the key. -/
theorem member?_ofJson_object (entries : Entries) (key : String) :
    (ofJson (.object entries)).member? key = some (ofOption (entries.get? key)) :=
  congrArg some (getD_lookup_ofEntries entries key)

theorem ofItems_eq_map (items : List Value) : ofItems items = (items.map ofJson).map some := by
  induction items with
  | nil => rfl
  | cons v rest ih => rw [ofItems, ih, List.map_cons, List.map_cons]

/-- The elements of a list are its items. -/
theorem elements?_ofJson_array (items : List Value) :
    (ofJson (.array items)).elements? = some (items.map ofJson) := by
  show some ((ofItems items).map _) = _
  rw [ofItems_eq_map, List.map_map]
  exact congrArg some (List.map_id _)

/-- The element at a position, if there is one. -/
theorem getD_getElem?_map_ofJson (items : List Value) (i : Nat) :
    (items.map ofJson)[i]?.getD undefined = ofOption (elementAt? (.array items) i) := by
  rw [List.getElem?_map, elementAt?]
  cases items[i]? <;> rfl

/-- The list of what is left from a position on. -/
theorem ofJson_elementsFrom (items : List Value) (i : Nat) :
    ofJson (elementsFrom (.array items) i) = list (((items.map ofJson).drop i).map some) := by
  rw [elementsFrom, ofJson, ofItems_eq_map, List.map_drop]

end Datum

/-- What an object has has distinct keys. -/
theorem Json.Entries.keysDistinct_of_get? {entries : Entries}
    (h : Value.EntriesKeysDistinct entries) {key : String} {v : Value}
    (hv : entries.get? key = some v) : v.KeysDistinct := by
  obtain ⟨⟨k, w⟩, hfind, rfl⟩ := Option.map_eq_some_iff.mp hv
  exact Value.entriesKeysDistinct_iff.mp h _ (List.mem_of_find?_eq_some hfind)

/-! ## Executing definitions -/

section

variable (missing : String → Datum)

/-- A value that may not be there is written as what it is. -/
theorem eval_embedOption (env : Bindings) {o : Option Value}
    (h : ∀ v, o = some v → v.KeysDistinct) :
    eval missing env (Literal.embedOption o) = some (Datum.ofOption o) := by
  cases o with
  | none => rfl
  | some v => exact Literal.eval_embed missing env v (h v rfl)

/-- A definition binds its name, and those behind it see the binding. -/
theorem execute_cons {env : Bindings} {d : Definition} {x : Datum}
    (h : eval missing env d.value = some x) (ds : List Definition) :
    execute missing env ((d :: ds).map Definition.declarator)
      = (execute missing ((d.target.ident.key, x) :: env)
          (ds.map Definition.declarator)).map ((d.target.ident.key, x) :: ·) := by
  rw [List.map_cons, Definition.declarator, execute, h]
  show Option.bind (execute missing _ _) _ = _
  cases execute missing ((d.target.ident.key, x) :: env) (ds.map Definition.declarator) <;> rfl

/-- **Definitions whose values depend on no name** are executed one by one. -/
theorem execute_map {α : Type} (f : α → Definition) (g : α → Datum) (xs : List α)
    (env : Bindings) (h : ∀ x ∈ xs, ∀ env, eval missing env (f x).value = some (g x)) :
    execute missing env ((xs.map f).map Definition.declarator)
      = some (xs.map fun x => ((f x).target.ident.key, g x)) := by
  induction xs generalizing env with
  | nil => rfl
  | cons x rest ih =>
      rw [List.map_cons, execute_cons missing (h x List.mem_cons_self env),
        ih _ (fun y hy => h y (List.mem_cons_of_mem _ hy))]
      rfl

/-- A member read off a name. -/
theorem eval_member (env : Bindings) (object : Ident) (key : Key) :
    eval missing env (Literal.member object key)
      = (env.lookup object.key).bind (Datum.read missing key.value) := by
  cases key <;> rfl

/-- **Definitions that read off an earlier name.** They find it, because none of them hides it. -/
theorem execute_ofReads {env : Bindings} {object : Ident} {own : List (String × Datum)}
    (hobject : env.lookup object.key = some (.object none own)) (picks : List Pick)
    (hne : ∀ p ∈ picks, p.target.key ≠ object.key) :
    execute missing env ((Definition.ofReads object picks).map Definition.declarator)
      = some (picks.map fun p =>
          (p.target.key, (own.lookup p.key.value).getD (missing p.key.value))) := by
  induction picks generalizing env with
  | nil => rfl
  | cons p rest ih =>
      have heval : eval missing env (Literal.member object p.key)
          = some ((own.lookup p.key.value).getD (missing p.key.value)) := by
        rw [eval_member, hobject]
        rfl
      rw [Definition.ofReads, List.map_cons, execute_cons missing heval]
      -- the binding of `p` stands in front of that of `object`, under another name
      have hnext : List.lookup object.key
          ((p.target.key, (own.lookup p.key.value).getD (missing p.key.value)) :: env)
            = some (.object none own) := by
        rw [List.lookup_cons, beq_false_of_ne (hne p List.mem_cons_self).symm]
        exact hobject
      rw [show (p.target.binding).ident = p.target from rfl]
      rw [show rest.map _ = Definition.ofReads object rest from rfl,
        ih hnext (fun q hq => hne q (List.mem_cons_of_mem _ hq))]
      rfl

end

/-! ## Imports -/

/-- A pass over a list that can fail succeeds if it does at every element. -/
theorem mapM_cons_eq_some_iff {α β : Type} {f : α → Option β} {x : α} {xs : List α}
    {ys : List β} :
    (x :: xs).mapM f = some ys ↔
      ∃ y rest, f x = some y ∧ xs.mapM f = some rest ∧ ys = y :: rest := by
  rw [List.mapM_cons]
  cases f x with
  | none => simp
  | some y =>
      cases xs.mapM f with
      | none => simp
      | some rest => simp [eq_comm]

namespace Shape

/-- A pick is made of a named specifier: it has the name, and the key is the imported one or else
    the name itself. -/
theorem boundTo?_of_pickOf? {s : Specifier} {p : Pick} (h : pickOf? s = some p) :
    s.target = p.target ∧
      ∀ d, Specifier.boundTo? d s = (d.member? p.key.value).map fun x => (p.target.key, x) := by
  cases s with
  | default target => exact nomatch h
  | star target => exact nomatch h
  | named target imported typeOnly =>
      cases typeOnly with
      | true =>
          cases imported <;> exact nomatch h
      | false =>
          cases imported with
          | none =>
              cases h
              exact ⟨rfl, fun _ => rfl⟩
          | some key =>
              cases h
              exact ⟨rfl, fun _ => rfl⟩

/-- Picks have the names of the specifiers that they are made of. -/
theorem map_key_of_picksOf? {specifiers : List Specifier} {picks : List Pick}
    (h : picksOf? specifiers = some picks) :
    (specifiers.map fun s => s.target.key) = picks.map fun p => p.target.key := by
  induction specifiers generalizing picks with
  | nil =>
      cases h
      rfl
  | cons s rest ih =>
      obtain ⟨p, ps, hp, hps, rfl⟩ := mapM_cons_eq_some_iff.mp h
      rw [List.map_cons, List.map_cons, ih hps, (boundTo?_of_pickOf? hp).1]

/-- **What named specifiers bind**, off an object. -/
theorem boundTo?_of_picksOf? {specifiers : List Specifier} {picks : List Pick}
    (h : picksOf? specifiers = some picks) (entries : Entries) :
    specifiers.mapM (Specifier.boundTo? (.ofJson (.object entries)))
      = some (picks.map fun p => (p.target.key, Datum.ofOption (entries.get? p.key.value))) := by
  induction specifiers generalizing picks with
  | nil =>
      cases h
      rfl
  | cons s rest ih =>
      obtain ⟨p, ps, hp, hps, rfl⟩ := mapM_cons_eq_some_iff.mp h
      refine mapM_cons_eq_some_iff.mpr ⟨_, _, ?_, ih hps, rfl⟩
      rw [(boundTo?_of_pickOf? hp).2, Datum.member?_ofJson_object]
      rfl

end Shape

section

variable (missing : String → Datum) (env : Bindings) {v : Value} {module : String}
  {ds : List Definition}

/-- One definition with all data. -/
theorem execute_whole (target : Binding) (h : v.KeysDistinct) (rest : List Definition) :
    execute missing env ((⟨target, Literal.embed v⟩ :: rest).map Definition.declarator)
      = (execute missing ((target.ident.key, .ofJson v) :: env)
          (rest.map Definition.declarator)).map ((target.ident.key, .ofJson v) :: ·) :=
  execute_cons missing (Literal.eval_embed missing env v h) rest

/-- **Picks out of an object.** -/
theorem execute_ofPicks {entries : Entries} (h : Value.EntriesKeysDistinct entries)
    (picks : List Pick) :
    execute missing env ((Definition.ofPicks picks entries).map Definition.declarator)
      = some (picks.map fun p => (p.target.key, Datum.ofOption (entries.get? p.key.value))) :=
  execute_map missing _ _ picks env (fun _ _ env =>
    eval_embedOption missing env (fun _ hv => Entries.keysDistinct_of_get? h hv))

/-- **Fields of an object.** -/
theorem execute_ofFields {entries : Entries} (h : Value.EntriesKeysDistinct entries)
    (fields : List (String × Binding)) :
    execute missing env ((Definition.ofFields fields entries).map Definition.declarator)
      = some (fields.map fun f => (f.2.ident.key, Datum.ofOption (entries.get? f.1))) :=
  execute_map missing _ _ fields env (fun _ _ env =>
    eval_embedOption missing env (fun _ hv => Entries.keysDistinct_of_get? h hv))

/-- **All data, and members read off it.** -/
theorem execute_wholeAndReads (target : Ident) {entries : Entries}
    (hkeys : (Value.object entries).KeysDistinct) (picks : List Pick)
    (hnew : target.key ∉ picks.map fun p => p.target.key) :
    execute missing env
        ((⟨target.binding, Literal.embed (.object entries)⟩ ::
          Definition.ofReads target picks).map Definition.declarator)
      = some ((target.key, .ofJson (.object entries)) ::
          picks.map fun p => (p.target.key,
            ((Datum.ofEntries entries).lookup p.key.value).getD (missing p.key.value))) := by
  have hne : ∀ p ∈ picks, p.target.key ≠ target.key := by
    intro p hp heq
    exact hnew (List.mem_map.mpr ⟨p, hp, heq⟩)
  have hlookup : List.lookup target.key ((target.key, Datum.ofJson (.object entries)) :: env)
      = some (.object none (Datum.ofEntries entries)) := List.lookup_cons_self
  rw [execute_whole missing env target.binding hkeys, show target.binding.ident = target from rfl,
    execute_ofReads missing hlookup picks hne]
  rfl

end

/-- **An import binds what its specifiers bind.** -/
theorem execute_ofSpecifiers {specifiers : List Specifier} {v : Value} {module : String}
    {ds : List Definition} (env : Bindings) (hkeys : v.KeysDistinct)
    (hlocals : ∀ target rest, specifiers = .default target :: rest →
      (specifiers.map fun s => s.target.key).Nodup) :
    (Shape.ofSpecifiers specifiers).isSupported = true →
    Definition.ofShape (Shape.ofSpecifiers specifiers) v module = .ok ds →
    ∃ bindings, specifiers.mapM (Specifier.boundTo? (.ofJson v)) = some bindings ∧
      execute (fun _ => .undefined) env (ds.map Definition.declarator) = some bindings := by
  fun_cases Shape.ofSpecifiers specifiers with
  | case1 target =>
      rintro - ⟨⟩
      exact ⟨[(target.key, .ofJson v)], rfl, execute_whole _ env target.binding hkeys []⟩
  | case2 target =>
      rintro - ⟨⟩
      exact ⟨[(target.key, .ofJson v)], rfl, execute_whole _ env target.binding hkeys []⟩
  | case3 target star =>
      rintro - ⟨⟩
      refine ⟨[(target.key, .ofJson v), (star.key, .ofJson v)], rfl, ?_⟩
      -- the second name takes its datum from the first one, which is bound last
      rw [execute_whole _ env target.binding hkeys, execute_cons]
      · rfl
      · exact List.lookup_cons_self
  | case4 target rest _ _ picks hpicks =>
      intro _ hbuild
      cases v with
      | object entries =>
          cases hbuild
          have hnodup := hlocals target rest rfl
          rw [List.map_cons, Shape.map_key_of_picksOf? hpicks, List.nodup_cons] at hnodup
          have hexecute :=
            execute_wholeAndReads (fun _ => .undefined) env target hkeys picks hnodup.1
          simp only [Datum.getD_lookup_ofEntries] at hexecute
          exact ⟨_, mapM_cons_eq_some_iff.mpr
            ⟨_, _, rfl, Shape.boundTo?_of_picksOf? hpicks entries, rfl⟩, hexecute⟩
      | _ => exact nomatch hbuild
  | case5 => exact nofun
  | case6 _ _ _ _ _ picks hpicks =>
      intro _ hbuild
      cases v with
      | object entries =>
          cases hbuild
          exact ⟨_, Shape.boundTo?_of_picksOf? hpicks entries, execute_ofPicks _ env hkeys.2 picks⟩
      | _ => exact nomatch hbuild
  | case7 => exact nofun

/-! ## Requires -/

/-- **What the entries of an object pattern bind**, off an object. -/
theorem bindEntries_of_fieldOf? {nodes : List Node} {fields : List (String × Binding)}
    (h : nodes.mapM Shape.fieldOf? = some fields) (entries : Entries) :
    bindEntries nodes (.ofJson (.object entries))
      = some (fields.map fun f => (f.2.ident.key, Datum.ofOption (entries.get? f.1))) := by
  induction nodes generalizing fields with
  | nil =>
      cases h
      rfl
  | cons n rest ih =>
      obtain ⟨field, fs, hfield, hfs, rfl⟩ := mapM_cons_eq_some_iff.mp h
      obtain ⟨rfl, hkey⟩ | rfl := Shape.fieldOf?_eq_some_iff.mp hfield
      · rw [bindEntries, ← hkey, Datum.member?_ofJson_object, ih hfs]
        rfl
      · rw [bindEntries, Datum.member?_ofJson_object, ih hfs]
        rfl

/-- An item of a list has distinct keys. -/
theorem keysDistinct_of_elementAt? {items : List Value} (h : Value.ItemsKeysDistinct items)
    {i : Nat} {v : Value} (hv : elementAt? (.array items) i = some v) : v.KeysDistinct :=
  Value.itemsKeysDistinct_iff.mp h v (List.mem_of_getElem? hv)

/-- The items that are left have distinct keys. -/
theorem keysDistinct_elementsFrom {items : List Value} (h : Value.ItemsKeysDistinct items)
    (i : Nat) : (elementsFrom (.array items) i).KeysDistinct := by
  refine Value.itemsKeysDistinct_iff.mpr (fun v hv => ?_)
  exact Value.itemsKeysDistinct_iff.mp h v (List.mem_of_mem_drop hv)

/-- **Definitions bind what the elements of a list pattern bind**, from a position of `items` on. -/
def BindsElements (missing : String → Datum) (items : List Value) (elements : List Node) (i : Nat)
    (ds : List Definition) : Prop :=
  ∃ bindings, bindElements elements i (items.map .ofJson) = some bindings ∧
    ∀ env, execute missing env (ds.map Definition.declarator) = some bindings

namespace BindsElements

variable {missing : String → Datum} {items : List Value} {elements : List Node} {i : Nat}
  {ds : List Definition}

theorem nil : BindsElements missing items [] i [] := ⟨[], rfl, fun _ => rfl⟩

/-- A hole binds nothing and takes a position. -/
theorem hole (h : BindsElements missing items elements (i + 1) ds) :
    BindsElements missing items (.absent :: elements) i ds := h

/-- A name takes the element at its position, if there is one. -/
theorem item (hkeys : Value.ItemsKeysDistinct items) (target : Binding)
    (h : BindsElements missing items elements (i + 1) ds) :
    BindsElements missing items (.binding target :: elements) i
      (⟨target, Literal.embedOption (elementAt? (.array items) i)⟩ :: ds) := by
  obtain ⟨bindings, hbindings, hexecute⟩ := h
  refine ⟨(target.ident.key, .ofOption (elementAt? (.array items) i)) :: bindings, ?_, ?_⟩
  · rw [bindElements]
    · rw [bindPattern, hbindings, Datum.getD_getElem?_map_ofJson]
      rfl
    · exact nofun
    · exact nofun
  · intro env
    rw [execute_cons missing (eval_embedOption missing env
      (fun _ hv => keysDistinct_of_elementAt? hkeys hv)), hexecute]
    rfl

/-- A rest takes the list of what is left. -/
theorem rest (hkeys : Value.ItemsKeysDistinct items) (type : Option String) (target : Binding) :
    BindsElements missing items [.node (.restPattern type) [.binding target]] i
      [⟨target, Literal.embed (elementsFrom (.array items) i)⟩] := by
  refine ⟨[(target.ident.key, .ofJson (elementsFrom (.array items) i))], ?_, ?_⟩
  · rw [bindElements, bindPattern, Datum.ofJson_elementsFrom]
  · intro env
    rw [execute_whole missing env target (keysDistinct_elementsFrom hkeys i)]
    rfl

end BindsElements

/-- The definitions of a name and of the slots behind it. -/
theorem exists_of_ofSlots_item {v : Value} {module : String} {i : Nat} {target : Binding}
    {slots : List Slot} {ds : List Definition}
    (h : Definition.ofSlots v module i (.item target :: slots) = .ok ds) :
    ∃ rest, Definition.ofSlots v module (i + 1) slots = .ok rest ∧
      ds = ⟨target, Literal.embedOption (elementAt? v i)⟩ :: rest := by
  rw [Definition.ofSlots] at h
  cases hrest : Definition.ofSlots v module (i + 1) slots with
  | error failure =>
      rw [hrest] at h
      cases h
  | ok rest =>
      rw [hrest] at h
      cases h
      exact ⟨rest, rfl, rfl⟩

/-- **The slots of a list pattern bind what its elements bind.** -/
theorem bindsElements_of_slotsOf? (missing : String → Datum) {items : List Value}
    (hkeys : Value.ItemsKeysDistinct items) {module : String} {elements : List Node}
    {slots : List Slot} (h : Shape.slotsOf? elements = some slots) {i : Nat}
    {ds : List Definition} (hbuild : Definition.ofSlots (.array items) module i slots = .ok ds) :
    BindsElements missing items elements i ds := by
  induction elements generalizing slots i ds with
  | nil => cases h
  | cons element rest ih =>
      -- the last element may be a rest, and those before it may be holes
      obtain ⟨slot, rfl, hslot, rfl⟩ | ⟨slot, slots', hslot, hslots', rfl⟩ :=
        Shape.exists_of_slotsOf?_cons h
      · obtain ⟨target, rfl, rfl⟩ | ⟨type, children, rfl, rfl⟩ :=
          Shape.lastSlotOf?_eq_some_iff.mp hslot
        · obtain ⟨ds', hds', rfl⟩ := exists_of_ofSlots_item hbuild
          cases hds'
          exact .item hkeys target .nil
        · rw [Definition.ofSlots_rest] at hbuild
          cases hname : Definition.restName? (.node (.restPattern type) children) with
          | none =>
              rw [hname] at hbuild
              cases hbuild
          | some target =>
              rw [hname] at hbuild
              cases hbuild
              obtain ⟨type', heq⟩ := Definition.restName?_eq_some_iff.mp hname
              cases heq
              exact .rest hkeys type target
      · obtain ⟨rfl, rfl⟩ | ⟨target, rfl, rfl⟩ := Shape.slotOf?_eq_some_iff.mp hslot
        · exact .hole (ih hslots' hbuild)
        · obtain ⟨ds', hds', rfl⟩ := exists_of_ofSlots_item hbuild
          exact .item hkeys target (ih hslots' hds')

/-- **A `require` binds what its pattern binds.** -/
theorem execute_ofTarget {target : Node} {v : Value} {module : String} {ds : List Definition}
    (env : Bindings) (hkeys : v.KeysDistinct)
    (hlist : ∀ slots, Shape.ofTarget target = .slotRequire slots → ∀ s, v ≠ .string s) :
    (Shape.ofTarget target).isSupported = true →
    Definition.ofShape (Shape.ofTarget target) v module = .ok ds →
    ∃ bindings, bindPattern target (.ofJson v) = some bindings ∧
      execute (fun _ => .undefined) env (ds.map Definition.declarator) = some bindings := by
  revert hlist
  fun_cases Shape.ofTarget target with
  | case1 target =>
      rintro - - ⟨⟩
      exact ⟨[(target.ident.key, .ofJson v)], rfl, execute_whole _ env target hkeys []⟩
  | case2 type entries field fields hfields =>
      intro _ _ hbuild
      cases v with
      | object members =>
          cases hbuild
          exact ⟨_, bindEntries_of_fieldOf? hfields members,
            execute_ofFields _ env hkeys.2 (field :: fields)⟩
      | _ => exact nomatch hbuild
  | case3 => exact fun _ => nofun
  | case4 type elements slots hslots =>
      intro hlist _ hbuild
      cases v with
      | array items =>
          obtain ⟨bindings, hbindings, hexecute⟩ :=
            bindsElements_of_slotsOf? (fun _ => .undefined) hkeys hslots hbuild
          refine ⟨bindings, ?_, hexecute env⟩
          rw [bindPattern, Datum.elements?_ofJson_array]
          exact hbindings
      | string s => exact absurd rfl (hlist slots rfl s)
      | _ => exact nomatch hbuild
  | case5 => exact fun _ => nofun
  | case6 => exact fun _ => nofun

/-! ## All shapes -/

/-- The shape of an import is that of its specifiers, if it is supported. -/
theorem Shape.ofImport_of_supported {decl : Import} (h : (ofImport decl).isSupported = true) :
    ofImport decl = ofSpecifiers decl.specifiers := by
  rw [ofImport] at h ⊢
  by_cases hother : (decl.typeOnly || decl.phase != .evaluation) = true
  · rw [if_pos hother] at h
    exact nomatch h
  · rw [if_neg hother]

/-- The shape of a declarator is that of its pattern, if it is supported. -/
theorem Shape.ofDeclarator_of_supported {accepts : String → Bool} {declarator : Node}
    (h : (ofDeclarator accepts declarator).isSupported = true) :
    ∃ definite target init, declarator = .declarator definite target init ∧
      ofDeclarator accepts declarator = ofTarget target := by
  revert h
  fun_cases ofDeclarator accepts declarator with
  | case1 definite target init _ _ _ => exact fun _ => ⟨definite, target, init, rfl, rfl⟩
  | case2 => exact nofun
  | case3 => exact nofun
  | case4 => exact nofun

/-- **A replacement binds what the declaration binds.** The definitions of a supported shape,
    executed first to last in any environment, bind the same names in the same order to the same
    data as the declaration by itself. -/
theorem replacement_binds_alike (accepts : String → Bool) (source : Source) (v : Value)
    (module : String) (ds : List Definition) (env : Bindings)
    (hsupported : (source.shape accepts).isSupported = true)
    (hbuild : Definition.ofShape (source.shape accepts) v module = .ok ds)
    (hkeys : v.KeysDistinct)
    (hlist : ∀ slots, source.shape accepts = .slotRequire slots → ∀ s, v ≠ .string s)
    (hlocals : source.LocalsDistinct) :
    ∃ bindings, source.bindings (.ofJson v) = some bindings ∧
      execute (fun _ => .undefined) env (ds.map Definition.declarator) = some bindings := by
  cases source with
  | imported decl =>
      have hshape : Source.shape accepts (.imported decl) = Shape.ofSpecifiers decl.specifiers :=
        Shape.ofImport_of_supported hsupported
      rw [hshape] at hsupported hbuild
      exact execute_ofSpecifiers env hkeys hlocals hsupported hbuild
  | required declarator =>
      rw [Source.shape] at hsupported hbuild hlist
      obtain ⟨definite, target, init, rfl, hshape⟩ := Shape.ofDeclarator_of_supported hsupported
      rw [hshape] at hsupported hbuild hlist
      exact execute_ofTarget env hkeys hlist hsupported hbuild

/-- An object without the key `b c`. -/
def mixedData : Value := .object [("a", .null), ("__proto__", .bool true)]

/-- An import of all data as `d`, of the key `a` as `x` and of the key `b c` as `y`. -/
def mixedImport : Import :=
  ⟨[.default ⟨"d", 1, .none, false⟩,
    .named ⟨"x", 1, .none, false⟩ (some (.name "a")) false,
    .named ⟨"y", 1, .none, false⟩ (some (.text "b c")) false],
    "m.json", false, .evaluation, .none⟩

/-- The definitions of `mixedImport` read the keys off the name `d`. -/
theorem replacement_binds_alike_mixed :
    Definition.ofShape (Shape.ofImport mixedImport) mixedData "m.json"
      = .ok (⟨Ident.binding ⟨"d", 1, .none, false⟩, Literal.embed mixedData⟩ ::
          Definition.ofReads ⟨"d", 1, .none, false⟩
            [⟨.name "a", ⟨"x", 1, .none, false⟩⟩, ⟨.text "b c", ⟨"y", 1, .none, false⟩⟩]) ∧
    ∃ bindings, Source.bindings (.ofJson mixedData) (.imported mixedImport) = some bindings ∧
      execute (fun _ => .undefined) []
          ((⟨Ident.binding ⟨"d", 1, .none, false⟩, Literal.embed mixedData⟩ ::
            Definition.ofReads ⟨"d", 1, .none, false⟩
              [⟨.name "a", ⟨"x", 1, .none, false⟩⟩,
                ⟨.text "b c", ⟨"y", 1, .none, false⟩⟩]).map Definition.declarator)
        = some bindings := by
  have hlocals : Source.LocalsDistinct (.imported mixedImport) := by
    intro target rest _
    decide
  have hkeys : mixedData.KeysDistinct := ⟨by decide, trivial, trivial, trivial⟩
  refine ⟨rfl, ?_⟩
  exact replacement_binds_alike (fun _ => true) (.imported mixedImport) mixedData "m.json" _ []
    rfl rfl hkeys (fun _ h => nomatch h) hlocals

end Inlay
