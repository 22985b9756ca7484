import Inlay.Proofs.Bindings

/-!
# Three ways to pick keys

Names for some keys of an object are written in the braces of an import, in the object pattern of a
`require`, or in braces behind a name for all data. The first two ways take the values out of the
data, and a key that is not there is undefined. The third one **reads members off the name for all
data**, when the program is executed, so it also finds what every object inherits.

* `namedSpecifiers`, `entryPatterns`: pairs of key and name as code, with `ofSpecifiers_named`,
  `ofSpecifiers_default_named` and `ofTarget_entries` for the shapes of such code.
* `execute_picks`, `execute_reads`: what the definitions of these shapes bind.
* `getD_map_ofJson_eq_iff`: a member read finds the value of a key unless something is inherited.
* `key_picks_agree_unless_inherited`: the three ways side by side.
* `inherited`: the members of plain objects; `inherited_member_is_found`: where the ways differ.
-/

namespace Inlay

open Code Json

/-! ## Pairs of key and name as code -/

section

variable (pairs : List (String × Binding))

/-- Every name takes the value of its key. -/
def picksOf : List Pick := pairs.map fun (key, target) => ⟨.name key, target.ident⟩

/-- The pairs in the braces of an import. -/
def namedSpecifiers : List Specifier :=
  pairs.map fun (key, target) => .named target.ident (some (.name key)) false

/-- The pairs in an object pattern. -/
def entryPatterns : List Node :=
  pairs.map fun (key, target) => .node .entryPattern [.node (.nameKey key) [], .binding target]

theorem picksOf?_namedSpecifiers :
    Shape.picksOf? (namedSpecifiers pairs) = some (picksOf pairs) := by
  induction pairs with
  | nil => rfl
  | cons pair rest ih => exact mapM_cons_eq_some_iff.mpr ⟨_, _, rfl, ih, rfl⟩

theorem mapM_fieldOf?_entryPatterns : (entryPatterns pairs).mapM Shape.fieldOf? = some pairs := by
  induction pairs with
  | nil => rfl
  | cons pair rest ih => exact mapM_cons_eq_some_iff.mpr ⟨_, _, rfl, ih, rfl⟩

theorem ofSpecifiers_named :
    Shape.ofSpecifiers (namedSpecifiers pairs) = .namedImport (picksOf pairs) := by
  have hpicks := picksOf?_namedSpecifiers pairs
  cases pairs with
  | nil => rfl
  | cons pair rest =>
      simp only [namedSpecifiers, List.map_cons] at hpicks ⊢
      rw [Shape.ofSpecifiers, hpicks]
      all_goals exact nofun

theorem ofSpecifiers_default_named (target : Ident) (h : pairs ≠ []) :
    Shape.ofSpecifiers (.default target :: namedSpecifiers pairs)
      = .defaultAndNamed target (picksOf pairs) := by
  have hpicks := picksOf?_namedSpecifiers pairs
  obtain ⟨pair, rest, rfl⟩ := List.exists_cons_of_ne_nil h
  simp only [namedSpecifiers, List.map_cons] at hpicks ⊢
  rw [Shape.ofSpecifiers, hpicks]
  all_goals exact nofun

theorem ofTarget_entries (type : Option String) (h : pairs ≠ []) :
    Shape.ofTarget (.node (.objectPattern type) (entryPatterns pairs)) = .fieldRequire pairs := by
  obtain ⟨pair, rest, rfl⟩ := List.exists_cons_of_ne_nil h
  rw [Shape.ofTarget, mapM_fieldOf?_entryPatterns]

/-! ## What they bind -/

variable (missing : String → Datum) (env : Bindings) {entries : Entries}

theorem execute_picks (h : Value.EntriesKeysDistinct entries) :
    execute missing env
        ((Definition.ofPicks (picksOf pairs) entries).map Definition.declarator)
      = some (pairs.map fun p => (p.2.ident.key, Datum.ofOption (entries.get? p.1))) := by
  rw [execute_ofPicks missing env h, picksOf, List.map_map]
  rfl

theorem execute_reads (target : Ident) (h : (Value.object entries).KeysDistinct)
    (hnew : target.key ∉ pairs.map fun p => p.2.ident.key) :
    execute missing env
        ((⟨target.binding, Literal.embed (.object entries)⟩ ::
          Definition.ofReads target (picksOf pairs)).map Definition.declarator)
      = some ((target.key, .ofJson (.object entries)) ::
          pairs.map fun p =>
            (p.2.ident.key, ((entries.get? p.1).map Datum.ofJson).getD (missing p.1))) := by
  have hpicks : target.key ∉ (picksOf pairs).map fun p => p.target.key := by
    rw [picksOf, List.map_map]
    exact hnew
  rw [execute_wholeAndReads missing env target h _ hpicks, picksOf, List.map_map]
  simp only [Datum.lookup_ofEntries, Function.comp_def, Key.value]

end

/-- A member read finds the value of a key, or else undefined, unless something else is there
    without being the object's own. -/
theorem getD_map_ofJson_eq_iff (missing : String → Datum) (entries : Entries) (key : String) :
    ((entries.get? key).map Datum.ofJson).getD (missing key) = .ofOption (entries.get? key) ↔
      (entries.get? key = none → missing key = .undefined) := by
  cases entries.get? key with
  | none => exact ⟨fun h _ => h, fun h => h rfl⟩
  | some v => exact ⟨fun _ => nofun, fun _ => rfl⟩

/-- **What a shape binds**: it comes to definitions, and they bind these names to these data. -/
def Shape.Binds (missing : String → Datum) (env : Bindings) (shape : Shape) (v : Value)
    (bindings : Bindings) : Prop :=
  ∀ module, ∃ ds, Definition.ofShape shape v module = .ok ds ∧
    execute missing env (ds.map Definition.declarator) = some bindings

/-- **The three ways to pick keys agree, unless something is inherited.** Whatever a member read
    finds under a key that an object does not have, the braces of an import and the object pattern
    of a `require` bind the same data: the value of each key, or undefined. Braces behind a name for
    all data bind the value of each key, or what is found. So they agree on a key that the object
    has, and on one that it does not have if nothing is found under it. -/
theorem key_picks_agree_unless_inherited (missing : String → Datum) (env : Bindings)
    (target : Ident) (entries : Entries) (pairs : List (String × Binding))
    (hkeys : (Value.object entries).KeysDistinct)
    (hnew : target.key ∉ pairs.map fun p => p.2.ident.key) :
    (pairs ≠ [] →
      Shape.ofSpecifiers (namedSpecifiers pairs) = .namedImport (picksOf pairs) ∧
      (∀ type, Shape.ofTarget (.node (.objectPattern type) (entryPatterns pairs))
        = .fieldRequire pairs) ∧
      Shape.ofSpecifiers (.default target :: namedSpecifiers pairs)
        = .defaultAndNamed target (picksOf pairs)) ∧
    Shape.Binds missing env (.namedImport (picksOf pairs)) (.object entries)
      (pairs.map fun p => (p.2.ident.key, .ofOption (entries.get? p.1))) ∧
    Shape.Binds missing env (.fieldRequire pairs) (.object entries)
      (pairs.map fun p => (p.2.ident.key, .ofOption (entries.get? p.1))) ∧
    Shape.Binds missing env (.defaultAndNamed target (picksOf pairs)) (.object entries)
      ((target.key, .ofJson (.object entries)) ::
        pairs.map fun p =>
          (p.2.ident.key, ((entries.get? p.1).map Datum.ofJson).getD (missing p.1))) ∧
    ∀ p ∈ pairs,
      (((entries.get? p.1).map Datum.ofJson).getD (missing p.1) = .ofOption (entries.get? p.1) ↔
        (entries.get? p.1 = none → missing p.1 = .undefined)) := by
  refine ⟨?_, ?_, ?_, ?_, fun p _ => getD_map_ofJson_eq_iff missing entries p.1⟩
  · intro h
    exact ⟨ofSpecifiers_named pairs, fun type => ofTarget_entries pairs type h,
      ofSpecifiers_default_named pairs target h⟩
  · intro module
    exact ⟨_, rfl, execute_picks pairs missing env hkeys.2⟩
  · intro module
    exact ⟨_, rfl, execute_ofFields missing env hkeys.2 pairs⟩
  · intro module
    exact ⟨_, rfl, execute_reads pairs missing env target hkeys hnew⟩

/-! ## Inherited members -/

/-- The functions that every plain object inherits. -/
def inheritedFunctions : List String :=
  ["constructor", "hasOwnProperty", "isPrototypeOf", "propertyIsEnumerable", "toLocaleString",
    "toString", "valueOf", "__defineGetter__", "__defineSetter__", "__lookupGetter__",
    "__lookupSetter__"]

/-- **What a plain object inherits** under a key. A function is seen here as an object with a
    name. -/
def inherited (key : String) : Datum :=
  if key = "__proto__" then .object (some .null) []
  else if key ∈ inheritedFunctions then
    .object none [("name", .string (if key = "constructor" then "Object" else key))]
  else .undefined

/-- Picks of the key `toString` as `x`, and of the key `k` as `y`. -/
def textPairs : List (String × Binding) :=
  [("toString", Ident.binding ⟨"x", 0, .none, false⟩), ("k", Ident.binding ⟨"y", 0, .none, false⟩)]

/-- An object with a member `toString` of its own. -/
def textObject : Entries := [("toString", .bool true)]

/-- A member of its own hides the one that the object inherits. -/
theorem own_member_hides_inherited :
    Shape.Binds inherited [] (.namedImport (picksOf textPairs)) (.object textObject)
      [(("x", 0), .boolean true), (("y", 0), .undefined)] ∧
    Shape.Binds inherited [] (.fieldRequire textPairs) (.object textObject)
      [(("x", 0), .boolean true), (("y", 0), .undefined)] ∧
    Shape.Binds inherited [] (.defaultAndNamed ⟨"d", 0, .none, false⟩ (picksOf textPairs))
      (.object textObject)
      [(("d", 0), .object none [("toString", .boolean true)]), (("x", 0), .boolean true),
        (("y", 0), .undefined)] := by
  have hkeys : (Value.object textObject).KeysDistinct := ⟨by decide, trivial, trivial⟩
  obtain ⟨-, hnamed, hfields, hmixed, -⟩ :=
    key_picks_agree_unless_inherited inherited [] ⟨"d", 0, .none, false⟩ textObject textPairs
      hkeys (by decide)
  exact ⟨hnamed, hfields, hmixed⟩

/-- **An inherited member is found**: off an object without members, the key `toString` is undefined
    in the braces of an import and in a pattern, and is a function behind a name for all data. -/
theorem inherited_member_is_found :
    Shape.Binds inherited [] (.namedImport (picksOf (textPairs.take 1))) (.object [])
      [(("x", 0), .undefined)] ∧
    Shape.Binds inherited [] (.fieldRequire (textPairs.take 1)) (.object [])
      [(("x", 0), .undefined)] ∧
    Shape.Binds inherited []
      (.defaultAndNamed ⟨"d", 0, .none, false⟩ (picksOf (textPairs.take 1))) (.object [])
      [(("d", 0), .object none []),
        (("x", 0), .object none [("name", .string "toString")])] ∧
    ¬ Shape.Binds inherited []
      (.defaultAndNamed ⟨"d", 0, .none, false⟩ (picksOf (textPairs.take 1))) (.object [])
      [(("d", 0), .object none []), (("x", 0), .undefined)] := by
  refine ⟨fun _ => ⟨_, rfl, rfl⟩, fun _ => ⟨_, rfl, rfl⟩, fun _ => ⟨_, rfl, rfl⟩, ?_⟩
  intro h
  obtain ⟨ds, hds, hexecute⟩ := h "a.json"
  cases hds
  exact nomatch hexecute

end Inlay
