import Inlay.Proofs.Bindings
import Inlay.Proofs.Outcome
import Inlay.Proofs.Reading

/-!
# From the text of a file to the constant of an import

A default import of a data module is replaced by one constant, and its initialiser evaluates to what
the language's own parser gives for the text of the file: numbers are the nearest doubles and keep
their sign, strings are unescaped, and an object has every key of the text once, where it stands
first, with the value that it has last.

* `Parsed`: the datum of a document, without reference to how texts are read or data is embedded.
* `keys_mergedMembers`, `get?_mergedMembers`: first places and last values of merged members.
* `parsed_ofJson_merged`: what is kept of a document is its datum.
* `import_becomes_parsed_constant`: the whole way.
-/

namespace Inlay

open Code Json

/-! ## The datum of a document -/

mutual

/-- **What parsing a text of the document gives.** -/
inductive Parsed : Value → Datum → Prop where
  | null : Parsed .null .null
  | bool (b : Bool) : Parsed (.bool b) (.boolean b)
  | number {n : Numeral} {d : Double} (hsign : d.isNegative = n.negative)
      (hrounded : Double.IsRounded n.absValue d.magnitude) : Parsed (.number n) (.number d)
  | string (s : String) : Parsed (.string s) (.string s)
  | array {items : List Value} {ds : List Datum} (h : ParsedItems items ds) :
      Parsed (.array items) (.list (ds.map some))
  | object {members : List (String × Value)} {all own : List (String × Datum)}
      (h : ParsedMembers members all)
      (hfirst : own.map Prod.fst = (members.map Prod.fst).eraseDups)
      (hlast : ∀ key, own.lookup key = all.reverse.lookup key) :
      Parsed (.object members) (.object none own)

/-- The data of the items of a list. -/
inductive ParsedItems : List Value → List Datum → Prop where
  | nil : ParsedItems [] []
  | cons {v : Value} {d : Datum} {items : List Value} {ds : List Datum} (h : Parsed v d)
      (hrest : ParsedItems items ds) : ParsedItems (v :: items) (d :: ds)

/-- The data of all members of an object, one by one. -/
inductive ParsedMembers : List (String × Value) → List (String × Datum) → Prop where
  | nil : ParsedMembers [] []
  | cons {key : String} {v : Value} {d : Datum} {members : List (String × Value)}
      {all : List (String × Datum)} (h : Parsed v d) (hrest : ParsedMembers members all) :
      ParsedMembers ((key, v) :: members) ((key, d) :: all)

end

/-! ## Merged members -/

namespace Json

namespace Entries

theorem keys_cons (entry : String × Value) (rest : Entries) :
    keys (entry :: rest) = entry.1 :: keys rest := rfl

/-- The keys behind a put: a new one goes last. -/
theorem keys_put (key : String) (v : Value) (entries : Entries) :
    (put key v entries).keys
      = if key ∈ entries.keys then entries.keys else entries.keys ++ [key] := by
  induction entries with
  | nil => rfl
  | cons entry rest ih =>
      obtain ⟨k, other⟩ := entry
      rw [put, keys_cons]
      by_cases hk : k = key
      · rw [if_pos hk, if_pos (List.mem_cons.mpr (Or.inl hk.symm))]
        rfl
      · rw [if_neg hk, keys_cons, ih]
        by_cases hmem : key ∈ keys rest
        · rw [if_pos hmem, if_pos (List.mem_cons_of_mem _ hmem)]
        · rw [if_neg hmem, if_neg (List.not_mem_cons_of_ne_of_not_mem (Ne.symm hk) hmem)]
          rfl

/-- The value of a key behind a put. -/
theorem get?_put (key : String) (v : Value) (entries : Entries) (k : String) :
    (put key v entries).get? k = if key = k then some v else entries.get? k := by
  induction entries with
  | nil =>
      rw [put, get?, List.find?_cons]
      by_cases hk : key = k
      · rw [if_pos hk, beq_iff_eq.mpr hk]
        rfl
      · rw [if_neg hk, beq_false_of_ne hk]
        rfl
  | cons entry rest ih =>
      obtain ⟨other, old⟩ := entry
      rw [put]
      by_cases hother : other = key
      · rw [if_pos hother, get?, get?, List.find?_cons, List.find?_cons, hother]
        by_cases hk : key = k
        · rw [if_pos hk, beq_iff_eq.mpr hk]
          rfl
        · rw [if_neg hk, beq_false_of_ne hk]
      · rw [if_neg hother]
        rw [get?, get?, List.find?_cons, List.find?_cons]
        by_cases hk : other = k
        · rw [beq_iff_eq.mpr hk, if_neg (fun h => hother (hk.trans h.symm))]
        · rw [beq_false_of_ne hk]
          exact ih

end Entries

namespace Value

/-- **Merged members stand where their keys stand first.** -/
theorem keys_mergedMembers (members : List (String × Value)) (done : Entries) :
    (mergedMembers done members).keys
      = done.keys ++ ((members.map Prod.fst).removeAll done.keys).eraseDups := by
  induction members generalizing done with
  | nil => exact (List.append_nil _).symm
  | cons m rest ih =>
      obtain ⟨key, v⟩ := m
      rw [mergedMembers, ih, Entries.keys_put, List.map_cons, List.cons_removeAll]
      by_cases hkey : key ∈ done.keys
      · rw [if_pos hkey, if_neg (by simpa using hkey)]
      · rw [if_neg hkey, if_pos (by simpa using hkey), List.eraseDups_cons, List.append_assoc]
        -- what is neither one of the keys before nor the new one
        have hfilter : (rest.map Prod.fst).removeAll (done.keys ++ [key])
            = ((rest.map Prod.fst).removeAll done.keys).filter (fun b => !b == key) := by
          simp only [List.removeAll, List.filter_filter]
          refine List.filter_congr (fun b _ => ?_)
          by_cases hb : b = key <;> simp [hb]
        rw [hfilter]
        rfl

/-- **Merged members have the value that their key has last.** -/
theorem get?_mergedMembers (members : List (String × Value)) (done : Entries) (key : String) :
    ((mergedMembers done members).get? key).map Datum.ofJson
      = ((members.map fun m => (m.1, Datum.ofJson m.2.merged)).reverse.lookup key).or
          ((done.get? key).map Datum.ofJson) := by
  induction members generalizing done with
  | nil => rfl
  | cons m rest ih =>
      obtain ⟨k, v⟩ := m
      rw [mergedMembers, ih, Entries.get?_put, List.map_cons, List.reverse_cons,
        List.lookup_append, Option.or_assoc, List.lookup_cons]
      -- the members to come are asked first, and then this one before those that are done
      congr 1
      by_cases hk : k = key
      · rw [if_pos hk, beq_iff_eq.mpr hk.symm]
        rfl
      · rw [if_neg hk, beq_false_of_ne (Ne.symm hk)]
        rfl

end Value

end Json

theorem Datum.map_fst_ofEntries (entries : Entries) :
    (ofEntries entries).map Prod.fst = entries.keys := by
  induction entries with
  | nil => rfl
  | cons entry rest ih =>
      rw [ofEntries, List.map_cons, ih]
      rfl

mutual

/-- **What is kept of a document is its datum.** -/
theorem parsed_ofJson_merged : ∀ v : Value, Parsed v (.ofJson v.merged)
  | .null => .null
  | .bool b => .bool b
  | .number n => by
      have hrounded : Double.IsRounded n.absValue n.toDouble.magnitude := by
        rw [n.magnitude_toDouble]
        exact n.isRounded_toMagnitude
      exact .number n.isNegative_toDouble hrounded
  | .string s => .string s
  | .array items => by
      rw [Value.merged, Datum.ofJson, Datum.ofItems_eq_map]
      exact .array (parsedItems_merged items)
  | .object members => by
      refine .object (parsedMembers_merged members) ?_ ?_
      · rw [Datum.map_fst_ofEntries, Value.keys_mergedMembers]
        show ([] : List String) ++ ((members.map Prod.fst).removeAll []).eraseDups = _
        rw [List.nil_append, List.removeAll_nil]
      · intro key
        rw [Datum.lookup_ofEntries, Value.get?_mergedMembers]
        exact Option.or_none

theorem parsedItems_merged :
    ∀ items : List Value, ParsedItems items ((Value.mergedItems items).map Datum.ofJson)
  | [] => .nil
  | v :: rest => .cons (parsed_ofJson_merged v) (parsedItems_merged rest)

theorem parsedMembers_merged :
    ∀ members : List (String × Value),
      ParsedMembers members (members.map fun m => (m.1, Datum.ofJson m.2.merged))
  | [] => .nil
  | (_, v) :: rest => .cons (parsed_ofJson_merged v) (parsedMembers_merged rest)

end

/-! ## The whole way -/

namespace Context

variable (ctx : Context)

/-- The module of a file that spells a document has the merged document as its data. -/
theorem fetch_of_spelledText {module : String} {text : String} {doc : Value}
    (hread : ctx.read (ctx.pathOf module) = .ok text) (htext : SpelledText doc text)
    (hdepth : doc.depth ≤ maxLevels) (hordinary : doc.IsOrdinary) :
    ctx.fetch module = .ok doc.merged := by
  rw [fetch, hread]
  dsimp only
  rw [parse_of_spelledText htext hdepth hordinary]

/-- A default import of a data module is replaced by one constant with its data. -/
theorem replacement?_defaultImport {decl : Import} {x : Ident} {v : Value}
    (hspecifiers : decl.specifiers = [.default x]) (hvalues : decl.typeOnly = false)
    (hphase : decl.phase = .evaluation) (haccepts : ctx.matcher.accepts decl.source = true)
    (hfetch : ctx.fetch decl.source = .ok v) (attributes : List Node) :
    ctx.replacement? .moduleBody (.node (.importItem decl) attributes)
        = some [Definition.constant ⟨x.binding, Literal.embed v⟩] ∧
      ctx.verdict (.importing decl) = none := by
  have hshape : Shape.ofImport decl = .defaultImport x := by
    rw [Shape.ofImport, hvalues, hphase, hspecifiers]
    rfl
  have hjob : ctx.importJob? decl = some ⟨.imported, decl.source, .defaultImport x⟩ :=
    ctx.importJob?_eq_some_iff.mpr ⟨haccepts, by rw [hshape]; rfl, by rw [hshape]⟩
  have hdefinitions : ctx.definitions ⟨.imported, decl.source, .defaultImport x⟩
      = .ok [⟨x.binding, Literal.embed v⟩] :=
    ctx.definitions_eq_ok_iff.mpr ⟨v, hfetch, rfl⟩
  constructor
  · rw [replacement?, job?, hjob]
    dsimp only
    rw [hdefinitions]
    rfl
  · rw [ctx.verdict_importing, hjob]
    exact ctx.fault?_eq_none_iff.mpr ⟨_, hdefinitions⟩

/-- The items of a module are replaced one by one. -/
theorem inlinedAll_append (form : Form) (first second : List Node) :
    ctx.inlinedAll form (first ++ second)
      = ctx.inlinedAll form first ++ ctx.inlinedAll form second := by
  induction first with
  | nil => rfl
  | cons n rest ih =>
      rw [List.cons_append, inlinedAll, ih, inlinedAll, List.append_assoc]

/-- An item of a module whose run succeeds is replaced among the others. -/
theorem run_of_replacement? {item : Node} {code : List Node}
    (h : ctx.replacement? .moduleBody item = some code) (before after : List Node)
    (hok : (ctx.run (.node .moduleBody (before ++ item :: after))).2.outcome = .ok ()) :
    (ctx.run (.node .moduleBody (before ++ item :: after))).1
      = .node .moduleBody
          (ctx.inlinedAll .moduleBody before ++ (code ++ ctx.inlinedAll .moduleBody after)) := by
  rw [ctx.run_of_allPass ((ctx.outcome_run_eq_ok_iff _).mp hok), inlined, inlinedAll_append,
    inlinedAll, h]
  rfl

/-- A module with nothing but one import succeeds if the import passes. -/
theorem outcome_run_importing {decl : Import} (h : ctx.verdict (.importing decl) = none) :
    (ctx.run (.node .moduleBody [.node (.importItem decl) []])).2.outcome = .ok () := by
  refine (ctx.outcome_run_eq_ok_iff _).mpr (fun s hs => ?_)
  obtain rfl : s = ⟨[0], .importing decl⟩ := List.mem_singleton.mp hs
  exact h

/-- **From the text of a file to the constant of an import.** Let `import x from m` be an eligible
    import, and let the file that it resolves to hold any text of an ordinary document that is at
    most 127 deep. Then there is a literal that evaluates, wherever it stands, to what parsing the
    text gives, and the import is replaced by the single constant `x` with this literal: wherever it
    is come to in a run that has not failed, and in every module whose run succeeds. -/
theorem import_becomes_parsed_constant (decl : Import) (attributes : List Node) (x : Ident)
    (doc : Value) (text : String) (hspecifiers : decl.specifiers = [.default x])
    (hvalues : decl.typeOnly = false) (hphase : decl.phase = .evaluation)
    (haccepts : ctx.matcher.accepts decl.source = true)
    (hread : ctx.read (ctx.pathOf decl.source) = .ok text) (htext : SpelledText doc text)
    (hdepth : doc.depth ≤ 127) (hordinary : doc.IsOrdinary) :
    ∃ literal d, Parsed doc d ∧
      (∀ missing env, eval missing env literal = some d) ∧
      (∀ j : Journal, j.stopped = false →
        ((ctx.settleItem (.node (.importItem decl) attributes)).run j).1
            = [Definition.constant ⟨x.binding, literal⟩] ∧
          ((ctx.settleItem (.node (.importItem decl) attributes)).run j).2.stopped = false) ∧
      (∀ before after : List Node,
        (ctx.run (.node .moduleBody
            (before ++ .node (.importItem decl) attributes :: after))).2.outcome = .ok () →
        (ctx.run (.node .moduleBody (before ++ .node (.importItem decl) attributes :: after))).1
          = .node .moduleBody
              (ctx.inlinedAll .moduleBody before
                ++ Definition.constant ⟨x.binding, literal⟩
                  :: ctx.inlinedAll .moduleBody after)) := by
  have hfetch := ctx.fetch_of_spelledText hread htext hdepth hordinary
  obtain ⟨hreplacement, hverdict⟩ := ctx.replacement?_defaultImport hspecifiers hvalues hphase
    haccepts hfetch attributes
  refine ⟨Literal.embed doc.merged, .ofJson doc.merged, parsed_ofJson_merged doc, ?_, ?_, ?_⟩
  · intro missing env
    exact Literal.eval_embed missing env _ (ctx.keysDistinct_fetch hfetch)
  · intro j hj
    rw [ctx.settleItem_import hj, hreplacement]
    refine ⟨rfl, ?_⟩
    rw [ctx.perform_of_passed hj hverdict]
    exact hj
  · intro before after hok
    exact ctx.run_of_replacement? hreplacement before after hok

end Context

/-! ## A document with a repeated key -/

/-- Every file holds the same text. -/
def sameFiles (text : String) : Context := ⟨⟨"", .empty⟩, none, fun _ => .ok text⟩

/-- The name `x`. -/
def importedName : Ident := ⟨"x", 0, .none, false⟩

/-- The declaration `import x from "a.json"`. -/
def defaultImport : Import := ⟨[.default importedName], "a.json", false, .evaluation, .none⟩

/-- A module with nothing but this import. -/
def importingModule : Node := .node .moduleBody [.node (.importItem defaultImport) []]

/-- The digits of a text. -/
def digitRow (text : String) : List Digit := text.toList.filterMap Digit.ofChar?

/-- The numeral `-0.0`, which keeps its sign. -/
def minusZeroPointZero : Numeral := ⟨true, digitRow "0", some (digitRow "0"), none⟩

/-- An object with a repeated key, an escaped character and a negative zero. -/
def repeatedKey : Value :=
  .object [("a", .bool true), ("b", .array [.number minusZeroPointZero]), ("a", .string "é")]

/-- One of its texts. -/
def repeatedKeyText : String := "\x7b\"a\":true, \"b\":[-0.0],\"a\":\"\\u00E9\"\x7d"

theorem spelledText_repeatedKey : SpelledText repeatedKey repeatedKeyText := by
  have hnone : Blanks [] := fun _ h => nomatch h
  have hspace : Blanks [' '] := fun c h => Or.inl (List.mem_singleton.mp h)
  have ha : SpelledString "a".toList ['a'] := spelledString_of_plain rfl
  have hb : SpelledString "b".toList ['b'] := spelledString_of_plain rfl
  have hunit : HexUnit 0xE9 ['0', '0', 'E', '9'] :=
    .four (i := 0) (j := 0) (k := 14) (l := 9) (Or.inl rfl) (Or.inl rfl) (Or.inr rfl) (Or.inl rfl)
  have hescape : SpelledString "é".toList ['\\', 'u', '0', '0', 'E', '9'] :=
    .cons (.unit (c := 'é') hunit) .nil
  have hnumeral : minusZeroPointZero.IsWritten := by
    refine ⟨Or.inl rfl, ?_, ?_⟩
    · intro ds hds
      cases hds
      exact List.cons_ne_nil _ _
    · intro e he
      cases he
  have hlist : Spelled (.array [.number minusZeroPointZero]) ['[', '-', '0', '.', '0', ']'] :=
    .array (.one hnone (.number hnumeral) hnone)
  exact .text hnone (.object (.more hnone (.member ha hnone hnone .true) hnone
    (.more hspace (.member hb hnone hnone hlist) hnone
      (.one hnone (.member ha hnone hnone (.string hescape)) hnone)))) hnone

/-- The import is replaced by an object with the two keys. -/
theorem repeatedKey_is_inlined :
    ((sameFiles repeatedKeyText).run importingModule).2.outcome = .ok () ∧
    ∃ literal d, Parsed repeatedKey d ∧
      (∀ missing env, eval missing env literal = some d) ∧
      ((sameFiles repeatedKeyText).run importingModule).1
        = .node .moduleBody [Definition.constant ⟨importedName.binding, literal⟩] := by
  have hdepth : repeatedKey.depth ≤ 127 := by decide
  have hordinary : repeatedKey.IsOrdinary := by
    refine ⟨?_, trivial, ⟨?_, trivial⟩, trivial, trivial⟩
    · intro m hm
      cases hm
      decide
    · show minusZeroPointZero.text ≠ "-0"
      decide
  have hfetch : (sameFiles repeatedKeyText).fetch defaultImport.source = .ok repeatedKey.merged :=
    (sameFiles repeatedKeyText).fetch_of_spelledText rfl spelledText_repeatedKey hdepth hordinary
  have hpasses := (sameFiles repeatedKeyText).replacement?_defaultImport rfl rfl rfl rfl hfetch []
  have hok := (sameFiles repeatedKeyText).outcome_run_importing hpasses.2
  obtain ⟨literal, d, hparsed, heval, -, hrun⟩ :=
    (sameFiles repeatedKeyText).import_becomes_parsed_constant defaultImport [] importedName
      repeatedKey repeatedKeyText rfl rfl rfl rfl rfl spelledText_repeatedKey hdepth hordinary
  exact ⟨hok, literal, d, hparsed, heval, hrun [] [] hok⟩

/-! ## Documents that are read as something else -/

/-- The numeral `-0`. -/
def minusZero : Numeral := ⟨true, digitRow "0", none, none⟩

/-- An object whose only key is that of a number. -/
def numberKeyObject : Value := .object [(numberKey, .string "1")]

/-- Its text. -/
def numberKeyText : String := "\x7b\"$serde_json::private::Number\":\"1\"\x7d"

/-- **Two kinds of documents do not come out as they are parsed.** The number `-0` becomes the
    literal `0`, without its sign, and an object whose first key is that of a number becomes a
    number. -/
theorem minus_zero_and_number_key_are_changed :
    (SpelledText (.number minusZero) "-0" ∧
      ((sameFiles "-0").run importingModule).1
        = .node .moduleBody [Definition.constant ⟨importedName.binding, .number Double.zero⟩] ∧
      ∀ missing env d, Parsed (.number minusZero) d →
        eval missing env (.number Double.zero) ≠ some d) ∧
    (SpelledText numberKeyObject numberKeyText ∧
      ((sameFiles numberKeyText).run importingModule).1
        = .node .moduleBody
            [Definition.constant
              ⟨importedName.binding, Literal.number ⟨false, [1], none, none⟩⟩] ∧
      ∀ missing env d, Parsed numberKeyObject d →
        eval missing env (Literal.number ⟨false, [1], none, none⟩) ≠ some d) := by
  have hnone : Blanks [] := fun _ h => nomatch h
  refine ⟨⟨?_, rfl, ?_⟩, ?_, ?_, ?_⟩
  · have hwritten : minusZero.IsWritten := by
      refine ⟨Or.inl rfl, ?_, ?_⟩
      · intro ds hds
        cases hds
      · intro e he
        cases he
    exact .text hnone (.number hwritten) hnone
  · intro missing env d hparsed heval
    cases hparsed with
    | number hsign _ =>
        cases heval
        exact nomatch hsign
  · have hkey : SpelledString numberKey.toList numberKey.toList :=
      spelledString_of_plain rfl
    have hone : SpelledString "1".toList ['1'] := spelledString_of_plain rfl
    exact .text hnone (.object (.one hnone (.member hkey hnone hnone (.string hone)) hnone)) hnone
  · have hfetch : (sameFiles numberKeyText).fetch defaultImport.source
        = .ok (.number ⟨false, [1], none, none⟩) := rfl
    obtain ⟨hreplacement, hverdict⟩ :=
      (sameFiles numberKeyText).replacement?_defaultImport rfl rfl rfl rfl hfetch []
    have hok := (sameFiles numberKeyText).outcome_run_importing hverdict
    exact (sameFiles numberKeyText).run_of_replacement? hreplacement [] [] hok
  · intro missing env d hparsed heval
    rw [Literal.eval_number] at heval
    cases hparsed with
    | object _ _ _ => exact nomatch heval

end Inlay
