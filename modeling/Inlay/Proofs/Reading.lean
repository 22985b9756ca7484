import Inlay.Json.Read
import Inlay.Proofs.Rounding
import Inlay.Proofs.Scanning

/-!
# Every text of a document is read

Reading a text that spells a document gives the document, with the members of each object merged:
every key once, where it stands first, with the value that it has last. Two kinds of documents are
left out, which are read as something else: those with a number written `-0`, which is stored
without its sign, and those with an object that starts with the key of a number.

* `Value.merged`: each key once; `Value.IsOrdinary`: what is not left out.
* `Takes`: what a reader does to the texts of one value.
* `elements_spelled`, `entries_spelled`: loops over items and members, given a reader for one.
* `takes_value`: values, by induction on the levels that are left.
* `parse_of_spelledText`: whole texts.
-/

namespace Inlay

/-- **A written numeral is stored as it is**, unless it is `-0`. -/
theorem Numeral.stored_of_isWritten {n : Numeral} (h : n.IsWritten) (hne : n.text ≠ "-0") :
    n.stored = n := by
  rw [stored]
  split
  · next hword =>
      obtain ⟨negative, whole, fraction, exponent⟩ := n
      simp only [isWord, isInteger, Bool.and_eq_true, Option.isNone_iff_eq_none] at hword
      obtain ⟨⟨rfl, rfl⟩, -⟩ := hword
      cases negative with
      | false => rfl
      | true =>
          have hvalue : Digit.value whole ≠ 0 := by
            rcases h.whole with rfl | ⟨d, rest, rfl, hd⟩
            · exact absurd rfl hne
            · intro hzero
              rw [Digit.value_cons, Nat.add_eq_zero_iff, Nat.mul_eq_zero] at hzero
              rcases hzero.1 with hdigit | hpower
              · exact hd (Fin.ext hdigit)
              · exact absurd hpower (Nat.pos_iff_ne_zero.mp (Nat.pow_pos (by decide)))
          rw [Bool.true_and, bne_iff_ne.mpr hvalue]
  · rfl

namespace Json

/-! ## What is kept of a document -/

mutual

/-- **A document with the members of each object merged.** -/
def Value.merged : Value → Value
  | .null => .null
  | .bool b => .bool b
  | .number n => .number n
  | .string s => .string s
  | .array items => .array (mergedItems items)
  | .object members => .object (mergedMembers [] members)

def Value.mergedItems : List Value → List Value
  | [] => []
  | v :: rest => v.merged :: mergedItems rest

/-- Members are put one by one to the entries before them. -/
def Value.mergedMembers (done : Entries) : List (String × Value) → Entries
  | [] => done
  | (key, v) :: rest => mergedMembers (done.put key v.merged) rest

end

mutual

/-- **An ordinary document**: no number in it is written `-0`, and no object in it starts with the
    key of a number. -/
def Value.IsOrdinary : Value → Prop
  | .number n => n.text ≠ "-0"
  | .array items => OrdinaryItems items
  | .object members => (∀ m ∈ members.head?, m.1 ≠ numberKey) ∧ OrdinaryMembers members
  | _ => True

def Value.OrdinaryItems : List Value → Prop
  | [] => True
  | v :: rest => v.IsOrdinary ∧ OrdinaryItems rest

def Value.OrdinaryMembers : List (String × Value) → Prop
  | [] => True
  | (_, v) :: rest => v.IsOrdinary ∧ OrdinaryMembers rest

end

/-! ## Steps of the readers -/

section

variable {item : Reader Value} {count : Nat} {w s x : List Char}

/-- What stands between blanks starts behind the first of them. -/
theorem skipBlank_between {c : Char} (hw : Blanks w) (hc : isBlank c = false)
    (u w' s : List Char) : skipBlank (w ++ (c :: u) ++ w' ++ s) = c :: u ++ (w' ++ s) := by
  rw [List.append_assoc, List.append_assoc, skipBlank_append hw]
  exact skipBlank_cons hc _

/-- A list that goes on at its start. -/
theorem nextElement_first (h : ∃ c u, skipBlank s = c :: u ∧ c ≠ ']') :
    nextElement true s = .ok (true, skipBlank s) := by
  obtain ⟨c, u, hs, hc⟩ := h
  rw [nextElement, hs]
  split
  · next heq => exact nomatch heq
  · next heq => exact absurd (List.cons.inj heq).1 hc
  · next heq => rw [if_pos rfl, ← heq]

/-- A list that goes on behind a comma. -/
theorem nextElement_comma (hw : Blanks w) (h : ∃ c u, skipBlank s = c :: u ∧ c ≠ ']') :
    nextElement false (w ++ ',' :: s) = .ok (true, skipBlank s) := by
  obtain ⟨c, u, hs, hc⟩ := h
  rw [nextElement, skipBlank_append hw, skipBlank_cons (by decide)]
  split
  · next heq => cases heq
  · next heq => exact absurd (List.cons.inj heq).1 (by decide)
  · next heq =>
      obtain ⟨rfl, rfl⟩ := List.cons.inj heq
      rw [if_neg Bool.false_ne_true, if_pos rfl, hs]
      split
      · next heq => cases heq
      · next heq => exact absurd (List.cons.inj heq).1 hc
      · rfl

/-- A list ends at its bracket. -/
theorem elements_close (hw : Blanks w) (done : List Value) :
    elements item count done (w ++ ']' :: s) = .ok (done.reverse, s) := by
  have hnext : nextElement done.isEmpty (w ++ ']' :: s) = .ok (false, ']' :: s) := by
    rw [nextElement, skipBlank_append hw, skipBlank_cons (by decide)]
    rfl
  cases count <;>
  · rw [elements, hnext]
    rfl

/-- A list goes on with an element. -/
theorem elements_step {done : List Value} {v : Value} {u : List Char}
    (hnext : nextElement done.isEmpty s = .ok (true, u)) (hitem : item u = .ok (v, x)) :
    elements item (count + 1) done s = elements item count (v :: done) x := by
  rw [elements, hnext]
  show (item u >>= _) = _
  rw [hitem]
  rfl

/-- The colon between a key and its value. -/
theorem colon_append (hw : Blanks w) : colon (w ++ ':' :: s) = .ok ((), s) := by
  rw [colon, skipBlank_append hw, skipBlank_cons (by decide)]
  rfl

/-- An object that goes on at its start. -/
theorem nextKey_first {key : String} {u : List Char} (h : skipBlank s = '"' :: u)
    (hkey : string u = .ok (key, x)) : nextKey true s = .ok (some key, x) := by
  rw [nextKey, h]
  show (string u >>= _) = _
  rw [hkey]
  rfl

/-- An object that goes on behind a comma. -/
theorem nextKey_comma {key : String} {u : List Char} (hw : Blanks w) (h : skipBlank s = '"' :: u)
    (hkey : string u = .ok (key, x)) : nextKey false (w ++ ',' :: s) = .ok (some key, x) := by
  rw [nextKey, skipBlank_append hw, skipBlank_cons (by decide)]
  split
  · next heq => cases heq
  · next heq => exact absurd (List.cons.inj heq).1 (by decide)
  · next heq => exact absurd (List.cons.inj heq).1 (by decide)
  · next heq =>
      obtain ⟨rfl, rfl⟩ := List.cons.inj heq
      rw [if_neg Bool.false_ne_true, if_pos rfl, h]
      show (string u >>= _) = _
      rw [hkey]
      rfl

/-- An object ends at its brace. -/
theorem nextKey_close (hw : Blanks w) (first : Bool) :
    nextKey first (w ++ '\x7d' :: s) = .ok (none, '\x7d' :: s) := by
  rw [nextKey, skipBlank_append hw, skipBlank_cons (by decide)]
  rfl

/-- Behind its members, an object ends at its brace. -/
theorem entries_close (hw : Blanks w) (done : Entries) :
    entries item count done (w ++ '\x7d' :: s) = .ok (done, s) := by
  cases count <;>
  · rw [entries, nextKey_close hw]
    rfl

/-- An object goes on with a member. -/
theorem entries_step {done : Entries} {key : String} {v : Value} {x₁ x₂ : List Char}
    (hkey : nextKey false s = .ok (some key, x₁)) (hcolon : colon x₁ = .ok ((), x₂))
    (hitem : item x₂ = .ok (v, x)) :
    entries item (count + 1) done s = entries item count (done.put key v) x := by
  rw [entries, hkey]
  show (colon x₁ >>= _) = _
  rw [hcolon]
  show (item x₂ >>= _) = _
  rw [hitem]
  rfl

/-- An object starts with a member, and goes on. -/
theorem object_step {key : String} {v : Value} {es : Entries} {u x₁ x₂ s' : List Char}
    (hquote : skipBlank s = '"' :: u) (hkey : string u = .ok (key, x₁)) (hne : key ≠ numberKey)
    (hcolon : colon x₁ = .ok ((), x₂)) (hitem : item x₂ = .ok (v, x))
    (hrest : entries item count [(key, v)] x = .ok (es, s')) :
    object count item s = .ok (.object es, s') := by
  rw [object, nextKey_first hquote hkey]
  show (if key = numberKey then _ else colon x₁ >>= _) = _
  rw [if_neg hne, hcolon]
  show (item x₂ >>= _) = _
  rw [hitem]
  show (entries item count [(key, v)] x >>= _) = _
  rw [hrest]
  rfl

end

/-! ## How values start -/

section

variable (bound levels : Nat)

/-- Blanks before a value do not matter. -/
theorem value_append {w : List Char} (hw : Blanks w) (s : List Char) :
    value bound levels (w ++ s) = value bound levels s := by
  rw [value.eq_def, value.eq_def]
  simp only [skipBlank_append hw]

/-- The first character of a numeral. -/
def startsNumeral (c : Char) : Bool := c = '-' || (Digit.ofChar? c).isSome

theorem startsNumeral_iff {c : Char} :
    startsNumeral c = true ↔ c = '-' ∨ ∃ d : Digit, c = d.char := by
  rw [startsNumeral, Bool.or_eq_true, decide_eq_true_eq, Option.isSome_iff_exists]
  refine or_congr_right ⟨?_, ?_⟩
  · rintro ⟨d, hd⟩
    exact ⟨d, eq_char_of_ofChar? hd⟩
  · rintro ⟨d, rfl⟩
    exact ⟨d, ofChar?_char d⟩

theorem ne_of_startsNumeral {c x : Char} (h : startsNumeral c = true)
    (hx : startsNumeral x = false) : c ≠ x := by
  rintro rfl
  rw [h] at hx
  exact nomatch hx

theorem isBlank_of_startsNumeral {c : Char} (h : startsNumeral c = true) : isBlank c = false := by
  rw [← Bool.not_eq_true, isBlank_iff]
  rintro (hc | hc | hc | hc) <;> exact ne_of_startsNumeral h (by decide) hc

/-- What starts like a numeral is read as one. -/
theorem value_numeral {c : Char} (h : startsNumeral c = true) (s : List Char) :
    value bound levels (c :: s)
      = (numeral (c :: s) >>= fun (n, s) => return (.number n.stored, s)) := by
  have hne : ∀ x : Char, startsNumeral x = false → c ≠ x := fun _ => ne_of_startsNumeral h
  rw [value.eq_def]
  dsimp only
  rw [skipBlank_cons (isBlank_of_startsNumeral h)]
  -- neither the end, nor one of the six characters that start another value
  split
  · next heq => exact nomatch heq
  · next heq => exact absurd (List.cons.inj heq).1 (hne _ (by decide))
  · next heq => exact absurd (List.cons.inj heq).1 (hne _ (by decide))
  · next heq => exact absurd (List.cons.inj heq).1 (hne _ (by decide))
  · next heq => exact absurd (List.cons.inj heq).1 (hne _ (by decide))
  · next heq => exact absurd (List.cons.inj heq).1 (hne _ (by decide))
  · next heq => exact absurd (List.cons.inj heq).1 (hne _ (by decide))
  · next heq =>
      obtain ⟨rfl, rfl⟩ := List.cons.inj heq
      exact if_pos h

end

/-- A written numeral starts like one. -/
theorem exists_cons_of_isWritten {n : Numeral} (h : n.IsWritten) :
    ∃ c u, n.text.toList = c :: u ∧ startsNumeral c = true := by
  obtain ⟨d, rest, hwhole⟩ := exists_digit_of_isWritten h
  rw [toList_text, hwhole]
  cases n.negative with
  | true => exact ⟨'-', _, rfl, rfl⟩
  | false => exact ⟨d.char, _, rfl, startsNumeral_iff.mpr (Or.inr ⟨d, rfl⟩)⟩

/-- The first character of a spelled value is neither a blank nor a closing bracket. -/
theorem exists_cons_of_spelled {v : Value} {t : List Char} (h : Spelled v t) :
    ∃ c u, t = c :: u ∧ isBlank c = false ∧ c ≠ ']' := by
  cases h with
  | number hn =>
      obtain ⟨c, u, htext, hc⟩ := exists_cons_of_isWritten hn
      refine ⟨c, u, htext, ?_⟩
      rcases startsNumeral_iff.mp hc with rfl | ⟨d, rfl⟩
      · exact ⟨rfl, by decide⟩
      · exact (by decide : ∀ d : Digit, isBlank d.char = false ∧ d.char ≠ ']') d
  | _ => exact ⟨_, _, rfl, rfl, by decide⟩

/-! ## Lists and objects -/

/-- A bound that is above something is not zero. -/
theorem exists_below {n bound : Nat} (h : n + 1 ≤ bound) :
    ∃ below, bound = below + 1 ∧ n ≤ below :=
  ⟨bound - 1, by omega, by omega⟩

/-- Every item takes at least one character. -/
theorem length_le_of_spelledItems {items : List Value} :
    ∀ {t : List Char}, SpelledItems items t → items.length ≤ t.length := by
  induction items with
  | nil => exact fun _ => Nat.zero_le _
  | cons v rest ih =>
      intro t h
      cases h with
      | one _ h _ =>
          obtain ⟨c, u, rfl, -⟩ := exists_cons_of_spelled h
          simp only [List.length_append, List.length_cons, List.length_nil]
          omega
      | more _ _ _ hrest =>
          have := ih hrest
          simp only [List.length_append, List.length_cons]
          omega

/-- Every member takes at least one character. -/
theorem length_le_of_spelledMembers {members : List (String × Value)} :
    ∀ {t : List Char}, SpelledMembers members t → members.length ≤ t.length := by
  induction members with
  | nil => exact fun _ => Nat.zero_le _
  | cons m rest ih =>
      intro t h
      cases h with
      | one _ h _ =>
          cases h
          simp only [List.length_append, List.length_cons, List.length_nil]
          omega
      | more _ _ _ hrest =>
          have := ih hrest
          simp only [List.length_append, List.length_cons]
          omega

/-- **A reader takes the spelled value `v` off the front** of any text. -/
def Takes (reader : Reader Value) (bound : Nat) (v : Value) : Prop :=
  ∀ t, Spelled v t → t.length ≤ bound → ∀ s, Follows s → reader (t ++ s) = .ok (v.merged, s)

section

variable {item : Reader Value} {bound : Nat}

/-- The items of a list start with neither a blank nor a closing bracket. -/
theorem exists_cons_of_spelledItems {items : List Value} {t : List Char}
    (h : SpelledItems items t) (s : List Char) :
    ∃ c u, skipBlank (t ++ s) = c :: u ∧ c ≠ ']' := by
  cases h with
  | one hw h _ =>
      obtain ⟨c, u, rfl, hblank, hc⟩ := exists_cons_of_spelled h
      exact ⟨c, _, skipBlank_between hw hblank u _ s, hc⟩
  | more hw h _ _ =>
      obtain ⟨c, u, rfl, hblank, hc⟩ := exists_cons_of_spelled h
      rw [List.append_assoc]
      exact ⟨c, _, skipBlank_between hw hblank u _ _, hc⟩

/-- An item between blanks is read. -/
theorem item_between {v : Value} (hitem : Takes item bound v) {w t w' : List Char}
    (hw : Blanks w) (h : Spelled v t) (hw' : Blanks w') (ht : t.length ≤ bound) {s : List Char}
    (hs : Follows s) : item (skipBlank (w ++ t ++ w' ++ s)) = .ok (v.merged, w' ++ s) := by
  have hread := hitem t h ht (w' ++ s) (follows_append hw' hs)
  obtain ⟨c, u, rfl, hblank, -⟩ := exists_cons_of_spelled h
  rw [skipBlank_between hw hblank u w' s]
  exact hread

/-- **The items of a list are read** where the list goes on. -/
theorem elements_spelled {items : List Value} (hitems : ∀ v ∈ items, Takes item bound v)
    {t s s' : List Char} (h : SpelledItems items t) (ht : t.length ≤ bound)
    {done : List Value}
    (hnext : nextElement done.isEmpty s' = .ok (true, skipBlank (t ++ ']' :: s)))
    {count : Nat} (hcount : items.length ≤ count) :
    elements item count done s' = .ok (done.reverse ++ Value.mergedItems items, s) := by
  -- `s'` is where the list goes on, at its start or at a comma; behind an item it does so again
  induction items generalizing t s' done count with
  | nil => exact nomatch h
  | cons v rest ih =>
      obtain ⟨hv, hrest⟩ := List.forall_mem_cons.mp hitems
      obtain ⟨count, rfl, hfewer⟩ := exists_below hcount
      cases h with
      | one hw h hw' =>
          have hend : Follows (']' :: s) := follows_cons (by decide) s
          simp only [List.length_append] at ht
          rw [elements_step hnext (item_between hv hw h hw' (by omega) hend), elements_close hw',
            List.reverse_cons]
          rfl
      | @more _ _ w t w' ts hw h hw' hmore =>
          have hend : Follows (',' :: (ts ++ ']' :: s)) := follows_cons (by decide) _
          simp only [List.length_append, List.length_cons] at ht
          rw [List.append_assoc, List.cons_append] at hnext
          rw [elements_step hnext (item_between hv hw h hw' (by omega) hend)]
          have hnext' : nextElement (v.merged :: done).isEmpty (w' ++ ',' :: (ts ++ ']' :: s))
              = .ok (true, skipBlank (ts ++ ']' :: s)) :=
            nextElement_comma hw' (exists_cons_of_spelledItems hmore _)
          rw [ih hrest hmore (by omega) hnext' hfewer, List.reverse_cons, List.append_assoc]
          rfl

/-- A whole list is read behind its bracket. -/
theorem list_spelled {items : List Value} (hitems : ∀ v ∈ items, Takes item bound v)
    {t : List Char} (h : SpelledItems items t) (ht : t.length ≤ bound) (s : List Char) :
    list bound item (t ++ ']' :: s) = .ok ((Value.array items).merged, s) := by
  have hnext : nextElement ([] : List Value).isEmpty (t ++ ']' :: s)
      = .ok (true, skipBlank (t ++ ']' :: s)) :=
    nextElement_first (exists_cons_of_spelledItems h _)
  have hcount : items.length ≤ bound := Nat.le_trans (length_le_of_spelledItems h) ht
  rw [list, elements_spelled hitems h ht hnext hcount]
  rfl

/-- **The parts of a member**: its key and colon are read, and its value is what comes next. -/
theorem member_parts {key : String} {v : Value} {w t : List Char} (hw : Blanks w)
    (h : SpelledMember (key, v) t) (x : List Char) :
    ∃ u x₁ w' t', skipBlank (w ++ t ++ x) = '"' :: u ∧ string u = .ok (key, x₁) ∧
      colon x₁ = .ok ((), w' ++ (t' ++ x)) ∧ Blanks w' ∧ Spelled v t' ∧ t'.length ≤ t.length := by
  cases h with
  | @member _ _ k w₁ w₂ t hkey hw₁ hw₂ h =>
      refine ⟨k ++ '"' :: (w₁ ++ ':' :: (w₂ ++ (t ++ x))), w₁ ++ ':' :: (w₂ ++ (t ++ x)), w₂, t,
        ?_, ?_, colon_append hw₁, hw₂, h, ?_⟩
      · rw [List.append_assoc, skipBlank_append hw]
        simp only [List.append_assoc, List.cons_append]
        exact skipBlank_cons (by decide) _
      · rw [string, stringFrom_spelled hkey, List.reverse_nil, List.nil_append,
          String.ofList_toList]
      · simp only [List.length_append]
        omega

/-- A member is read if its value is. -/
theorem member_spelled {key : String} {v : Value} (hv : Takes item bound v)
    (hblank : ∀ {w : List Char}, Blanks w → ∀ s, item (w ++ s) = item s) {w t x : List Char}
    (hw : Blanks w) (h : SpelledMember (key, v) t) (ht : t.length ≤ bound) (hx : Follows x) :
    ∃ u x₁ x₂, skipBlank (w ++ t ++ x) = '"' :: u ∧ string u = .ok (key, x₁) ∧
      colon x₁ = .ok ((), x₂) ∧ item x₂ = .ok (v.merged, x) := by
  obtain ⟨u, x₁, w', t', hquote, hkey, hcolon, hw', hvalue, hlength⟩ := member_parts hw h x
  refine ⟨u, x₁, w' ++ (t' ++ x), hquote, hkey, hcolon, ?_⟩
  rw [hblank hw', hv t' hvalue (Nat.le_trans hlength ht) x hx]

/-- **The members of an object are read** where the object goes on. -/
theorem entries_spelled (hblank : ∀ {w : List Char}, Blanks w → ∀ s, item (w ++ s) = item s)
    {members : List (String × Value)} (hmembers : ∀ m ∈ members, Takes item bound m.2)
    {t s s' : List Char} (h : SpelledMembers members t) (ht : t.length ≤ bound)
    (hnext : ∀ {u x : List Char} {key : String}, skipBlank (t ++ '\x7d' :: s) = '"' :: u →
      string u = .ok (key, x) → nextKey false s' = .ok (some key, x))
    {count : Nat} (hcount : members.length ≤ count) (done : Entries) :
    entries item count done s' = .ok (Value.mergedMembers done members, s) := by
  -- as for items, but a key is read as soon as the object is known to go on
  induction members generalizing t s' done count with
  | nil => exact nomatch h
  | cons m rest ih =>
      obtain ⟨key, v⟩ := m
      obtain ⟨hv, hrest⟩ := List.forall_mem_cons.mp hmembers
      obtain ⟨count, rfl, hfewer⟩ := exists_below hcount
      cases h with
      | @one _ w t w' hw h hw' =>
          have hend : Follows (w' ++ '\x7d' :: s) := follows_append hw' (follows_cons (by decide) s)
          simp only [List.length_append] at ht
          obtain ⟨u, x₁, x₂, hfirst, hkey, hcolon, hvalue⟩ :=
            member_spelled hv hblank hw h (by omega) hend
          rw [← List.append_assoc] at hfirst
          rw [entries_step (hnext hfirst hkey) hcolon hvalue, entries_close hw']
          rfl
      | @more _ _ w t w' ts hw h hw' hmore =>
          have hend : Follows (w' ++ ',' :: (ts ++ '\x7d' :: s)) :=
            follows_append hw' (follows_cons (by decide) _)
          simp only [List.length_append, List.length_cons] at ht
          obtain ⟨u, x₁, x₂, hfirst, hkey, hcolon, hvalue⟩ :=
            member_spelled hv hblank hw h (by omega) hend
          rw [← List.append_assoc, ← List.cons_append, ← List.append_assoc] at hfirst
          rw [entries_step (hnext hfirst hkey) hcolon hvalue]
          exact ih hrest hmore (by omega) (nextKey_comma hw') hfewer _

/-- A whole object is read behind its brace, if it does not start with the key of a number. -/
theorem object_spelled (hblank : ∀ {w : List Char}, Blanks w → ∀ s, item (w ++ s) = item s)
    {members : List (String × Value)} (hmembers : ∀ m ∈ members, Takes item bound m.2)
    (hfirst : ∀ m ∈ members.head?, m.1 ≠ numberKey) {t : List Char}
    (h : SpelledMembers members t) (ht : t.length ≤ bound) (s : List Char) :
    object bound item (t ++ '\x7d' :: s) = .ok ((Value.object members).merged, s) := by
  have hcount := Nat.le_trans (length_le_of_spelledMembers h) ht
  -- the first member is read by itself, and the others behind it
  cases h with
  | @one m w t w' hw h hw' =>
      have hend : Follows (w' ++ '\x7d' :: s) := follows_append hw' (follows_cons (by decide) s)
      simp only [List.length_append] at ht
      obtain ⟨u, x₁, x₂, hquote, hkey, hcolon, hvalue⟩ :=
        member_spelled (hmembers m List.mem_cons_self) hblank hw h (by omega) hend
      rw [← List.append_assoc] at hquote
      exact object_step hquote hkey (hfirst m rfl) hcolon hvalue (entries_close hw' _)
  | @more m rest w t w' ts hw h hw' hmore =>
      have hend : Follows (w' ++ ',' :: (ts ++ '\x7d' :: s)) :=
        follows_append hw' (follows_cons (by decide) _)
      simp only [List.length_append, List.length_cons] at ht
      obtain ⟨u, x₁, x₂, hquote, hkey, hcolon, hvalue⟩ :=
        member_spelled (hmembers m List.mem_cons_self) hblank hw h (by omega) hend
      rw [← List.append_assoc, ← List.cons_append, ← List.append_assoc] at hquote
      have hrest : ∀ m ∈ rest, Takes item bound m.2 :=
        fun m hm => hmembers m (List.mem_cons_of_mem _ hm)
      refine object_step hquote hkey (hfirst m rfl) hcolon hvalue ?_
      exact entries_spelled hblank hrest hmore (by omega) (nextKey_comma hw')
        (Nat.le_of_succ_le hcount) _

end

/-! ## Depth and ordinary values, item by item -/

namespace Value

/-- A list is as deep as its deepest item. -/
theorem depth_le_depthItems {v : Value} {items : List Value} (h : v ∈ items) :
    v.depth ≤ depthItems items := by
  induction items with
  | nil => exact nomatch h
  | cons w rest ih =>
      rw [depthItems]
      rcases List.mem_cons.mp h with rfl | hrest
      · exact Nat.le_max_left _ _
      · exact Nat.le_trans (ih hrest) (Nat.le_max_right _ _)

/-- An object is as deep as its deepest member. -/
theorem depth_le_depthMembers {m : String × Value} {members : List (String × Value)}
    (h : m ∈ members) : m.2.depth ≤ depthMembers members := by
  induction members with
  | nil => exact nomatch h
  | cons other rest ih =>
      rw [depthMembers]
      rcases List.mem_cons.mp h with rfl | hrest
      · exact Nat.le_max_left _ _
      · exact Nat.le_trans (ih hrest) (Nat.le_max_right _ _)

theorem ordinaryItems_iff {items : List Value} :
    OrdinaryItems items ↔ ∀ v ∈ items, v.IsOrdinary := by
  induction items with
  | nil => exact iff_of_true trivial (fun _ h => nomatch h)
  | cons v rest ih => rw [OrdinaryItems, ih, List.forall_mem_cons]

theorem ordinaryMembers_iff {members : List (String × Value)} :
    OrdinaryMembers members ↔ ∀ m ∈ members, m.2.IsOrdinary := by
  induction members with
  | nil => exact iff_of_true trivial (fun _ h => nomatch h)
  | cons m rest ih => rw [OrdinaryMembers, ih, List.forall_mem_cons]

end Value

/-! ## Whole texts -/

/-- A value is read if the values one level below are. -/
theorem takes_value_of_below {bound levels : Nat}
    (hbelow : ∀ below, levels = below + 1 → ∀ v : Value, v.IsOrdinary → v.depth ≤ below →
      Takes (value bound below) bound v)
    {v : Value} (hordinary : v.IsOrdinary) (hdepth : v.depth ≤ levels) :
    Takes (value bound levels) bound v := by
  intro t h ht s hs
  cases h with
  | null =>
      rw [value.eq_def]
      rfl
  | true =>
      rw [value.eq_def]
      rfl
  | false =>
      rw [value.eq_def]
      rfl
  | number hn =>
      obtain ⟨c, u, htext, hc⟩ := exists_cons_of_isWritten hn
      have hnumeral := numeral_text hn hs
      rw [htext, List.cons_append] at hnumeral ⊢
      rw [value_numeral bound levels hc, hnumeral]
      show Except.ok (Value.number (Numeral.stored _), s) = _
      rw [Numeral.stored_of_isWritten hn hordinary]
      rfl
  | @string text t hstring =>
      rw [List.cons_append, List.cons_append, List.append_assoc, value.eq_def]
      show (stringFrom [] (t ++ '"' :: s) >>= _) = _
      rw [stringFrom_spelled hstring, List.reverse_nil, List.nil_append, String.ofList_toList]
      rfl
  | @emptyArray w hw =>
      obtain ⟨below, rfl, -⟩ := exists_below hdepth
      rw [List.cons_append, List.cons_append, List.append_assoc, value.eq_def]
      show (elements _ bound [] (w ++ ']' :: s) >>= _) = _
      rw [elements_close hw]
      rfl
  | @array items t hitems =>
      obtain ⟨below, rfl, hle⟩ := exists_below hdepth
      simp only [List.length_append, List.length_cons] at ht
      have htakes : ∀ v ∈ items, Takes (value bound below) bound v := by
        intro v hv
        exact hbelow below rfl v (Value.ordinaryItems_iff.mp hordinary v hv)
          (Nat.le_trans (Value.depth_le_depthItems hv) hle)
      rw [List.cons_append, List.cons_append, List.append_assoc, value.eq_def]
      exact list_spelled htakes hitems (by omega) s
  | @emptyObject w hw =>
      obtain ⟨below, rfl, -⟩ := exists_below hdepth
      rw [List.cons_append, List.cons_append, List.append_assoc, value.eq_def]
      show (nextKey true (w ++ '\x7d' :: s) >>= _) = _
      rw [nextKey_close hw]
      rfl
  | @object members t hmembers =>
      obtain ⟨below, rfl, hle⟩ := exists_below hdepth
      simp only [List.length_append, List.length_cons] at ht
      have htakes : ∀ m ∈ members, Takes (value bound below) bound m.2 := by
        intro m hm
        exact hbelow below rfl m.2 (Value.ordinaryMembers_iff.mp hordinary.2 m hm)
          (Nat.le_trans (Value.depth_le_depthMembers hm) hle)
      rw [List.cons_append, List.cons_append, List.append_assoc, value.eq_def]
      exact object_spelled (value_append bound below) htakes hordinary.1 hmembers (by omega) s

/-- **A value is read as it is spelled**, and what follows it is left. -/
theorem takes_value {bound levels : Nat} {v : Value} (hordinary : v.IsOrdinary)
    (hdepth : v.depth ≤ levels) : Takes (value bound levels) bound v := by
  induction levels generalizing v with
  | zero =>
      refine takes_value_of_below (fun below h => ?_) hordinary hdepth
      exact absurd h (Nat.succ_ne_zero below).symm
  | succ levels ih =>
      refine takes_value_of_below (fun below h => ?_) hordinary hdepth
      cases h
      exact fun v => ih

/-- Blanks may stand behind a whole value. -/
theorem finish_of_blanks {α : Type} {w : List Char} (hw : Blanks w) (a : α) :
    finish (a, w) = .ok a := by
  have hblank : skipBlank w = [] := by
    have := skipBlank_append hw []
    rwa [List.append_nil] at this
  rw [finish, hblank]

/-- **Every text of an ordinary document is read**, and gives the document with its members merged.
    -/
theorem parse_of_spelledText {v : Value} {text : String} (h : SpelledText v text)
    (hdepth : v.depth ≤ maxLevels) (hordinary : v.IsOrdinary) : parse text = .ok v.merged := by
  obtain @⟨w, t, w', hw, h, hw'⟩ := h
  have hlength : t.length ≤ (w ++ t ++ w').length := by
    simp only [List.length_append]
    omega
  have hend : Follows w' := by
    have := follows_append hw' (show Follows [] from fun _ hc => nomatch hc)
    rwa [List.append_nil] at this
  rw [parse, parseWith, String.toList_ofList, List.append_assoc, value_append _ _ hw,
    ← List.append_assoc, takes_value hordinary hdepth t h hlength w' hend]
  rw [show (Except.ok (v.merged, w') >>= finish) = finish (v.merged, w') from rfl,
    finish_of_blanks hw']

end Json

end Inlay
