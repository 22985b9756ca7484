import Inlay.Proofs.Skipping
import Inlay.Settings

/-!
# The fields of settings

Settings that are written as an object are given by two of its members, wherever these stand; all
other members are passed over, whatever they hold. A field may be given **once**, as a string or as
`null`, and giving it again is a fault even if it was `null` before.

* `held?`: what a value gives to a field; `Fields.add`: the fields behind one more member.
* `toOption_readFields`: reading the members of an object adds them one by one.
* `foldlM_add`: the members of a field do not meet those of the other.
* `GivenOnce`: what the members of a field must be like.
* `object_settings_are_its_two_fields`: the settings of an object.
-/

namespace Inlay.Settings

open Json

/-! ## The value of a field -/

/-- A step that stops stops all that follows. -/
theorem toOption_bind {α β : Type} (x : Except Fault α) (f : α → Except Fault β) :
    (x >>= f).toOption = x.toOption.bind fun a => (f a).toOption := by
  cases x <;> rfl

/-- A value of another kind is never accepted. -/
theorem toOption_mistyped {α : Type} (wanted : String) (s : List Char) :
    (mistyped wanted s : Except Fault α).toOption = none := by
  have hstop : ∀ {β : Type} (x : Except Fault β) (f : β → Fault),
      (x >>= fun b => (.error (f b) : Except Fault α)).toOption = none := by
    intro β x f
    cases x <;> rfl
  rw [mistyped.eq_def]
  split
  · rfl
  · exact hstop _ _
  · exact hstop _ _
  · exact hstop _ _
  · exact hstop _ _
  · rfl
  · rfl
  · split
    · exact hstop _ _
    · rfl

/-- **What a value gives to a field**: a string gives itself, and `null` gives nothing. -/
def held? : Value → Option (Option String)
  | .null => some none
  | .string s => some (some s)
  | _ => none

/-- Only `null` and strings start like a value of a field. -/
theorem toOption_fieldValue_of_other {c : Char} (hblank : isBlank c = false) (hnull : c ≠ 'n')
    (hquote : c ≠ '"') (s : List Char) : (fieldValue (c :: s)).toOption = none := by
  rw [fieldValue, skipBlank_cons hblank]
  split
  · next heq => exact absurd (List.cons.inj heq).1 hnull
  · next heq => exact absurd (List.cons.inj heq).1 hquote
  · exact toOption_mistyped _ _

/-- **The value of a field is read as it is spelled**, if it is a string or `null`. -/
theorem toOption_fieldValue {v : Value} {w t : List Char} (hw : Blanks w) (h : Spelled v t)
    (s : List Char) :
    (fieldValue (w ++ (t ++ s))).toOption = (held? v).map fun x => (x, s) := by
  have hblank : fieldValue (w ++ (t ++ s)) = fieldValue (t ++ s) := by
    simp only [fieldValue, skipBlank_append hw]
  rw [hblank]
  cases h with
  | null => rfl
  | @string text t hstring =>
      rw [List.cons_append, List.cons_append, List.append_assoc]
      show (stringFrom [] (t ++ '"' :: s) >>= _).toOption = _
      rw [stringFrom_spelled hstring, List.reverse_nil, List.nil_append, String.ofList_toList]
      rfl
  | number hn =>
      obtain ⟨c, u, htext, hc⟩ := exists_cons_of_isWritten hn
      rw [htext]
      exact toOption_fieldValue_of_other (isBlank_of_startsNumeral hc)
        (ne_of_startsNumeral hc (by decide)) (ne_of_startsNumeral hc (by decide)) _
  | _ => exact toOption_fieldValue_of_other (by decide) (by decide) (by decide) _

/-! ## Members -/

/-- **Gives a value to a field**, which must not have one. -/
def giveOnce (field : Option (Option String)) (v : Value) : Option (Option (Option String)) :=
  if field.isSome then none else (held? v).map some

/-- **The fields behind one more member.** A member that is no field changes nothing. -/
def Fields.add (fields : Fields) (m : String × Value) : Option Fields :=
  if m.1 = "match" then (giveOnce fields.pattern m.2).map fun p => ⟨p, fields.flags⟩
  else if m.1 = "matchFlags" then (giveOnce fields.flags m.2).map fun f => ⟨fields.pattern, f⟩
  else some fields

section

variable {size count : Nat} {fields : Fields} {first : Bool} {s : List Char}

/-- An object goes on with a member. -/
theorem readFields_step {key : String} {x : List Char}
    (hkey : nextKey first s = .ok (some key, x)) :
    readFields size (count + 1) first fields s
      = (readMember size fields key x >>= fun p => readFields size count false p.1 p.2) := by
  rw [readFields, hkey]
  rfl

/-- An object ends at its brace. -/
theorem readFields_close {w : List Char} (hw : Blanks w) :
    readFields size count first fields (w ++ '\x7d' :: s) = .ok (fields, s) := by
  cases count <;>
  · rw [readFields, nextKey_close hw]
    rfl

/-- A field that occurs again is never accepted. -/
theorem toOption_stopAtRepeated {α : Type} (name : String) (s : List Char) :
    (stopAtRepeated name s : Except Fault α).toOption = none := by
  rw [stopAtRepeated]
  split <;> rfl

variable {key : String} {v : Value} {w t x x' : List Char}

/-- **A value is given to a field by its member**, if the field has none. -/
theorem toOption_readOnce {field : Option (Option String)}
    (hcolon : colon x = .ok ((), w ++ (t ++ x'))) (hw : Blanks w) (h : Spelled v t) :
    (readOnce key field x).toOption
      = if field.isSome then none else (held? v).map fun y => (y, x') := by
  rw [readOnce]
  split
  · exact toOption_stopAtRepeated key x
  · rw [hcolon]
    exact toOption_fieldValue hw h x'

/-- **Reading a member adds it to the fields.** -/
theorem toOption_readMember (hcolon : colon x = .ok ((), w ++ (t ++ x'))) (hw : Blanks w)
    (h : Spelled v t) (ht : t.length ≤ size) (hx' : Follows x') :
    (readMember size fields key x).toOption = (fields.add (key, v)).map fun f => (f, x') := by
  rw [readMember, Fields.add]
  split
  · rw [toOption_bind, toOption_readOnce hcolon hw h, giveOnce]
    cases fields.pattern.isSome <;> cases held? v <;> rfl
  · split
    · rw [toOption_bind, toOption_readOnce hcolon hw h, giveOnce]
      cases fields.flags.isSome <;> cases held? v <;> rfl
    · rw [hcolon]
      show (skipValue size (w ++ (t ++ x')) >>= _).toOption = _
      rw [skipValue, skipValues_append hw, ← skipValue, skipValue_spelled h ht hx']
      rfl

/-- **Reading the members of an object adds them one by one**, where the object goes on. -/
theorem toOption_readFields {members : List (String × Value)} {s' : List Char}
    (h : SpelledMembers members t) (ht : t.length ≤ size)
    (hnext : ∀ {u x : List Char} {key : String}, skipBlank (t ++ '\x7d' :: s) = '"' :: u →
      string u = .ok (key, x) → nextKey first s' = .ok (some key, x))
    (hcount : members.length ≤ count) :
    (readFields size count first fields s').toOption
      = (members.foldlM Fields.add fields).map fun f => (f, s) := by
  -- a member that cannot be added ends both; behind any other, the object goes on or ends
  induction members generalizing t s' fields first count with
  | nil => exact nomatch h
  | cons m rest ih =>
      obtain ⟨key, v⟩ := m
      obtain ⟨count, rfl, hfewer⟩ := exists_below hcount
      rw [List.foldlM_cons]
      cases h with
      | @one _ w t w' hw h hw' =>
          have hend : Follows (w' ++ '\x7d' :: s) := follows_append hw' (follows_cons (by decide) s)
          simp only [List.length_append] at ht
          obtain ⟨u, x, w₁, t₁, hquote, hkey, hcolon, hw₁, hvalue, hlength⟩ :=
            member_parts hw h (w' ++ '\x7d' :: s)
          rw [← List.append_assoc] at hquote
          rw [readFields_step (hnext hquote hkey), toOption_bind,
            toOption_readMember hcolon hw₁ hvalue (by omega) hend]
          cases fields.add (key, v) with
          | none => rfl
          | some f => exact congrArg Except.toOption (readFields_close hw')
      | @more _ _ w t w' ts hw h hw' hmore =>
          have hend : Follows (w' ++ ',' :: (ts ++ '\x7d' :: s)) :=
            follows_append hw' (follows_cons (by decide) _)
          simp only [List.length_append, List.length_cons] at ht
          obtain ⟨u, x, w₁, t₁, hquote, hkey, hcolon, hw₁, hvalue, hlength⟩ :=
            member_parts hw h (w' ++ ',' :: (ts ++ '\x7d' :: s))
          rw [← List.append_assoc, ← List.cons_append, ← List.append_assoc] at hquote
          rw [readFields_step (hnext hquote hkey), toOption_bind,
            toOption_readMember hcolon hw₁ hvalue (by omega) hend]
          cases fields.add (key, v) with
          | none => rfl
          | some f => exact ih hmore (by omega) (nextKey_comma hw') hfewer

end

/-- **An object is read**: its members are added to no fields. -/
theorem toOption_read {members : List (String × Value)} {t : List Char}
    (h : Spelled (.object members) t) {size : Nat} (ht : t.length ≤ size) (s : List Char) :
    (read size (t ++ s)).toOption
      = (members.foldlM Fields.add ⟨none, none⟩).map fun f => (f.settings, s) := by
  have hread : ∀ u, (read size ('\x7b' :: u)).toOption
      = (readFields size size true ⟨none, none⟩ u).toOption.map fun p => (p.1.settings, p.2) := by
    intro u
    show (readFields size size true ⟨none, none⟩ u >>= fun p => pure (p.1.settings, p.2)).toOption
      = _
    rw [toOption_bind]
    cases (readFields size size true ⟨none, none⟩ u).toOption <;> rfl
  cases h with
  | emptyObject hw =>
      rw [List.cons_append, List.cons_append, List.append_assoc, hread]
      exact congrArg (Option.map _) (congrArg Except.toOption (readFields_close hw))
  | object h =>
      simp only [List.length_append, List.length_cons] at ht
      have hlength := length_le_of_spelledMembers h
      have hcount : members.length ≤ size := by omega
      rw [List.cons_append, List.cons_append, List.append_assoc, hread, List.singleton_append,
        toOption_readFields h (by omega) nextKey_first hcount, Option.map_map]
      rfl

/-- Where a fault stands does not matter to whether there is one. -/
theorem toOption_parseWith {α : Type} (reader : Reader α) (text : List Char) :
    (parseWith reader text).toOption
      = (reader text).toOption.bind fun p => (finish p).toOption := by
  rw [← toOption_bind, parseWith]
  cases reader text >>= finish <;> rfl

/-- **Settings that are written as an object**: its members are added to no fields. -/
theorem toOption_parse {members : List (String × Value)} {text : String}
    (h : SpelledText (.object members) text) :
    (parse text).toOption = (members.foldlM Fields.add ⟨none, none⟩).map Fields.settings := by
  obtain @⟨w, t, w', hw, h, hw'⟩ := h
  have hbrace : (w ++ t ++ w').all Text.isBlank = false := by
    obtain ⟨u, rfl⟩ : ∃ u, t = '\x7b' :: u := by
      cases h <;> exact ⟨_, rfl⟩
    rw [List.all_eq_false]
    exact ⟨'\x7b', by simp, by decide⟩
  have hsize : t.length ≤ (w ++ t ++ w').length := by
    simp only [List.length_append]
    omega
  have hblank : ∀ size, read size (w ++ t ++ w') = read size (t ++ w') := by
    intro size
    simp only [read, List.append_assoc, skipBlank_append hw]
  rw [parse, String.toList_ofList, hbrace, if_neg Bool.false_ne_true, toOption_parseWith, hblank,
    toOption_read h hsize]
  cases members.foldlM Fields.add ⟨none, none⟩ with
  | none => rfl
  | some fields => exact congrArg Except.toOption (finish_of_blanks hw' fields.settings)

/-! ## The two fields -/

/-- The values that are given under a key, in order. -/
def valuesOf (key : String) (members : List (String × Value)) : List Value :=
  (members.filter fun m => m.1 == key).map Prod.snd

theorem mem_valuesOf {key : String} {members : List (String × Value)} {v : Value} :
    v ∈ valuesOf key members ↔ (key, v) ∈ members := by
  simp [valuesOf]

theorem length_valuesOf (key : String) (members : List (String × Value)) :
    (valuesOf key members).length = (members.map Prod.fst).count key := by
  rw [valuesOf, List.length_map, List.count, List.countP_map, List.countP_eq_length_filter]
  rfl

theorem valuesOf_cons (key : String) (m : String × Value) (members : List (String × Value)) :
    valuesOf key (m :: members)
      = if m.1 = key then m.2 :: valuesOf key members else valuesOf key members := by
  by_cases h : m.1 = key
  · simp [valuesOf, h]
  · simp [valuesOf, h]

/-- **The members of a field do not meet those of the other**: each field is given its own values,
    and all others are passed over. -/
theorem foldlM_add (members : List (String × Value)) (pattern flags : Option (Option String)) :
    members.foldlM Fields.add ⟨pattern, flags⟩
      = ((valuesOf "match" members).foldlM giveOnce pattern).bind fun pattern =>
          ((valuesOf "matchFlags" members).foldlM giveOnce flags).map fun flags =>
            ⟨pattern, flags⟩ := by
  induction members generalizing pattern flags with
  | nil => rfl
  | cons m members ih =>
      rw [List.foldlM_cons, Fields.add, valuesOf_cons, valuesOf_cons]
      by_cases hpattern : m.1 = "match"
      · have hflags : m.1 ≠ "matchFlags" := by
          rw [hpattern]
          decide
        rw [if_pos hpattern, if_pos hpattern, if_neg hflags, List.foldlM_cons]
        cases giveOnce pattern m.2 with
        | none => rfl
        | some given => exact ih given flags
      · rw [if_neg hpattern, if_neg hpattern]
        by_cases hflags : m.1 = "matchFlags"
        · rw [if_pos hflags, if_pos hflags, List.foldlM_cons]
          cases giveOnce flags m.2 with
          | none =>
              -- the other field may fail or not: a member is refused either way
              show none = Option.bind _ fun _ => Option.map _ none
              simp
          | some given => exact ih pattern given
        · rw [if_neg hflags, if_neg hflags]
          exact ih pattern flags

/-- **A field is given properly**: at most once, and as a string or as `null`. -/
def GivenOnce (key : String) (members : List (String × Value)) : Prop :=
  (members.map Prod.fst).count key ≤ 1 ∧
    ∀ v, (key, v) ∈ members → v = .null ∨ ∃ s, v = .string s

/-- A field has nothing, or what its only value gives. -/
theorem foldlM_giveOnce_eq_some {vs : List Value} {field : Option (Option String)} :
    vs.foldlM giveOnce none = some field
      ↔ (vs = [] ∧ field = none) ∨ ∃ v x, vs = [v] ∧ held? v = some x ∧ field = some x := by
  match vs with
  | [] => simp [eq_comm]
  | [v] =>
      cases hv : held? v with
      | none => simp [giveOnce, hv]
      | some x => simp [giveOnce, hv, eq_comm]
  | v :: v' :: rest =>
      cases hv : held? v with
      | none => simp [giveOnce, hv]
      | some x => simp [giveOnce, hv]

theorem held?_eq_some {v : Value} {x : Option String} :
    held? v = some x ↔ (v = .null ∧ x = none) ∨ ∃ s, v = .string s ∧ x = some s := by
  cases v <;> simp [held?, eq_comm]

/-- **A field can be read if it is given properly.** -/
theorem exists_foldlM_giveOnce {key : String} {members : List (String × Value)} :
    (∃ field, (valuesOf key members).foldlM giveOnce none = some field)
      ↔ GivenOnce key members := by
  simp only [foldlM_giveOnce_eq_some, held?_eq_some, GivenOnce, ← length_valuesOf, ← mem_valuesOf]
  match valuesOf key members with
  | [] => simp
  | [v] => cases v <;> simp
  | _ :: _ :: _ => simp

/-- **A field that can be read has its string.** -/
theorem getD_foldlM_giveOnce {key : String} {members : List (String × Value)}
    {field : Option (Option String)}
    (h : (valuesOf key members).foldlM giveOnce none = some field) (s : String) :
    field.getD none = some s ↔ (key, .string s) ∈ members := by
  rw [← mem_valuesOf]
  obtain ⟨hvalues, rfl⟩ | ⟨v, x, hvalues, hheld, rfl⟩ := foldlM_giveOnce_eq_some.mp h
  · simp [hvalues]
  · rw [hvalues]
    obtain ⟨rfl, rfl⟩ | ⟨text, rfl, rfl⟩ := held?_eq_some.mp hheld
    · simp
    · simp [eq_comm]

/-- **The order of the values of a field does not matter.** -/
theorem foldlM_giveOnce_of_perm {vs vs' : List Value} (h : vs.Perm vs') :
    vs.foldlM giveOnce none = vs'.foldlM giveOnce none := by
  apply Option.ext
  intro field
  have hempty : vs = [] ↔ vs' = [] := by
    rw [← List.length_eq_zero_iff, ← List.length_eq_zero_iff, h.length_eq]
  have hone : ∀ v, vs = [v] ↔ vs' = [v] := by
    intro v
    rw [← List.perm_singleton, ← List.perm_singleton]
    exact ⟨h.symm.trans, h.trans⟩
  simp only [foldlM_giveOnce_eq_some, hempty, hone]

/-- A field of settings. -/
def isField (m : String × Value) : Bool := m.1 == "match" || m.1 == "matchFlags"

/-- Members that are no fields do not give a field anything. -/
theorem valuesOf_filter {key : String} (hkey : key = "match" ∨ key = "matchFlags")
    (members : List (String × Value)) :
    valuesOf key (members.filter isField) = valuesOf key members := by
  have hfield : ∀ m : String × Value, (m.1 == key && isField m) = (m.1 == key) := by
    intro m
    obtain rfl | rfl := hkey <;> simp +contextual [isField]
  rw [valuesOf, valuesOf, List.filter_filter]
  simp only [hfield]

theorem valuesOf_perm {key : String} (hkey : key = "match" ∨ key = "matchFlags")
    {members members' : List (String × Value)}
    (h : (members.filter isField).Perm (members'.filter isField)) :
    (valuesOf key members).Perm (valuesOf key members') := by
  rw [← valuesOf_filter hkey, ← valuesOf_filter hkey members']
  exact (h.filter _).map _

/-! ## Settings of an object -/

/-- **Settings can be read if both fields can be**, and have what these have. -/
theorem parse_eq_ok {members : List (String × Value)} {text : String}
    (h : SpelledText (.object members) text) {settings : Settings} :
    parse text = .ok settings ↔
      ∃ pattern flags, (valuesOf "match" members).foldlM giveOnce none = some pattern ∧
        (valuesOf "matchFlags" members).foldlM giveOnce none = some flags ∧
        settings = ⟨pattern.getD none, flags.getD none⟩ := by
  have hok : parse text = .ok settings ↔ (parse text).toOption = some settings := by
    cases parse text <;> simp [Except.toOption]
  rw [hok, toOption_parse h, foldlM_add]
  cases (valuesOf "match" members).foldlM giveOnce none with
  | none => simp
  | some pattern =>
      cases (valuesOf "matchFlags" members).foldlM giveOnce none with
      | none => simp
      | some flags => simp [Fields.settings, eq_comm]

/-- **The settings of an object are its two fields.** They can be read from any of its texts if the
    fields are given properly, whatever else the object has, and then have the string of each. So
    neither the order of the members nor the members that are no fields matter. -/
theorem object_settings_are_its_two_fields (members : List (String × Value)) (text : String)
    (h : SpelledText (.object members) text) :
    ((∃ settings, parse text = .ok settings)
      ↔ GivenOnce "match" members ∧ GivenOnce "matchFlags" members) ∧
    (∀ settings, parse text = .ok settings → ∀ s,
      (settings.pattern = some s ↔ ("match", .string s) ∈ members) ∧
      (settings.flags = some s ↔ ("matchFlags", .string s) ∈ members)) ∧
    ∀ members' text', SpelledText (.object members') text' →
      (members.filter isField).Perm (members'.filter isField) →
      ∀ settings, parse text = .ok settings ↔ parse text' = .ok settings := by
  refine ⟨?_, ?_, ?_⟩
  · rw [← exists_foldlM_giveOnce, ← exists_foldlM_giveOnce]
    simp only [parse_eq_ok h]
    constructor
    · rintro ⟨-, pattern, flags, hpattern, hflags, -⟩
      exact ⟨⟨pattern, hpattern⟩, flags, hflags⟩
    · rintro ⟨⟨pattern, hpattern⟩, flags, hflags⟩
      exact ⟨_, pattern, flags, hpattern, hflags, rfl⟩
  · intro settings hparse s
    obtain ⟨pattern, flags, hpattern, hflags, rfl⟩ := (parse_eq_ok h).mp hparse
    exact ⟨getD_foldlM_giveOnce hpattern s, getD_foldlM_giveOnce hflags s⟩
  · intro members' text' h' hperm settings
    rw [parse_eq_ok h, parse_eq_ok h', foldlM_giveOnce_of_perm (valuesOf_perm (.inl rfl) hperm),
      foldlM_giveOnce_of_perm (valuesOf_perm (.inr rfl) hperm)]

/-- An object that has the name of a field inside another member, and `null` for a field. -/
def nestedMembers : List (String × Value) :=
  [("x", .object [("match", .array [.bool true])]), ("match", .string "a"), ("matchFlags", .null)]

/-- One of its texts, in which a key has an escape. -/
def nestedText : String :=
  "\x7b\"x\":\x7b\"match\":[true]\x7d,\"\\u006datch\":\"a\",\"matchFlags\":null\x7d"

/-- Only the fields, in another order. -/
def plainMembers : List (String × Value) := [("matchFlags", .null), ("match", .string "a")]

/-- The text of these. -/
def plainText : String := "\x7b\"matchFlags\":null,\"match\":\"a\"\x7d"

theorem spelledText_nested : SpelledText (.object nestedMembers) nestedText := by
  have hx : SpelledString "x".toList "x".toList := spelledString_of_plain rfl
  have ha : SpelledString "a".toList "a".toList := spelledString_of_plain rfl
  have hmatch : SpelledString "match".toList "match".toList := spelledString_of_plain rfl
  have hflags : SpelledString "matchFlags".toList "matchFlags".toList := spelledString_of_plain rfl
  have htail : SpelledString "atch".toList "atch".toList := spelledString_of_plain rfl
  have hunit : HexUnit 0x6D ['0', '0', '6', 'd'] :=
    .four (i := 0) (j := 0) (k := 6) (l := 13) (Or.inl rfl) (Or.inl rfl) (Or.inl rfl) (Or.inl rfl)
  have hescaped : SpelledString "match".toList (['\\', 'u', '0', '0', '6', 'd'] ++ "atch".toList) :=
    .cons (.unit (c := 'm') hunit) htail
  have hlist : Spelled (.array [.bool true]) "[true]".toList :=
    .array (.one blanks_nil .true blanks_nil)
  have hinner : Spelled (.object [("match", .array [.bool true])])
      "\x7b\"match\":[true]\x7d".toList :=
    .object (.one blanks_nil (.member hmatch blanks_nil blanks_nil hlist) blanks_nil)
  have hmembers := SpelledMembers.more blanks_nil
    (.member hx blanks_nil blanks_nil hinner) blanks_nil
    (.more blanks_nil (.member hescaped blanks_nil blanks_nil (.string ha)) blanks_nil
      (.one blanks_nil (.member hflags blanks_nil blanks_nil .null) blanks_nil))
  have htext := SpelledText.text blanks_nil (.object hmembers) blanks_nil
  refine Eq.mp (congrArg (SpelledText _) ?_) htext
  decide +kernel

theorem spelledText_plain : SpelledText (.object plainMembers) plainText := by
  have ha : SpelledString "a".toList "a".toList := spelledString_of_plain rfl
  have hmatch : SpelledString "match".toList "match".toList := spelledString_of_plain rfl
  have hflags : SpelledString "matchFlags".toList "matchFlags".toList := spelledString_of_plain rfl
  exact .text blanks_nil (.object
    (.more blanks_nil (.member hflags blanks_nil blanks_nil .null) blanks_nil
      (.one blanks_nil (.member hmatch blanks_nil blanks_nil (.string ha)) blanks_nil))) blanks_nil

/-- The nested name is passed over, and the escaped one is the field; the other text gives the
    same. -/
theorem nested_settings_are_read :
    SpelledText (.object nestedMembers) nestedText ∧
    ∃ settings : Settings, parse nestedText = .ok settings ∧ settings.pattern = some "a" ∧
      settings.flags = none ∧ parse plainText = .ok settings := by
  obtain ⟨hread, hfields, hsame⟩ :=
    object_settings_are_its_two_fields nestedMembers nestedText spelledText_nested
  have hgiven : GivenOnce "match" nestedMembers ∧ GivenOnce "matchFlags" nestedMembers := by
    simp [GivenOnce, nestedMembers]
  obtain ⟨settings, hparse⟩ := hread.mpr hgiven
  have hflags : ∀ s, settings.flags ≠ some s := by
    intro s hs
    exact absurd ((hfields settings hparse s).2.mp hs) (by simp [nestedMembers])
  have hperm : (nestedMembers.filter isField).Perm (plainMembers.filter isField) :=
    List.Perm.swap _ _ []
  refine ⟨spelledText_nested, settings, hparse, ?_, ?_, ?_⟩
  · exact (hfields settings hparse "a").1.mpr (by simp [nestedMembers])
  · exact Option.eq_none_iff_forall_ne_some.mpr hflags
  · exact (hsame plainMembers plainText spelledText_plain hperm settings).mp hparse

end Inlay.Settings
