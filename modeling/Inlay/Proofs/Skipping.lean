import Inlay.Json.Skip
import Inlay.Proofs.Reading
import Mathlib.Data.List.DropRight

/-!
# Passing over spelled values

Every value that the grammar spells is passed over as a whole, however deep it is: what stands
behind it is left, and none of it is touched. Passing over keeps a **stack** of the lists and
objects that are open instead of calling itself for each, so the statement is about what happens
next: behind a value, the work goes on with what encloses it.

* `skipString_spelled`, `skipKey_spelled`: strings and keys.
* `skipBehind`: what is done behind a value; `Passed`: a text after which just that is done.
* `passed_of_spelled`: values, by induction on how they are spelled.
* `skipValue_spelled`: a value that nothing encloses.
-/

namespace Inlay.Json

/-! ## Strings, numerals and keys -/

/-- Every spelling of a character is passed over. -/
theorem skipString_spelledChar {c : Char} {t : List Char} (h : SpelledChar c t) (s : List Char) :
    skipString (t ++ s) = skipString s := by
  cases h with
  | plain hprintable hquote hbackslash =>
      rw [List.singleton_append, skipString, if_neg (Nat.not_lt.mpr hprintable)]
      · exact hquote
      · exact fun h => absurd h hbackslash
      · exact fun _ h => absurd h hbackslash
      · exact fun _ _ h => absurd h hbackslash
  | @short letter _ h =>
      have hletter : letter ≠ 'u' ∧ (escapeLetter? letter).isSome = true := by
        have hall : ∀ entry ∈ shortEscapes,
            entry.1 ≠ 'u' ∧ (escapeLetter? entry.1).isSome = true := by
          decide
        exact hall _ h
      rw [List.cons_append, List.singleton_append, skipString, if_pos hletter.2]
      exact hletter.1
  | unit h =>
      obtain ⟨a, b, d, e, rfl, hfour, -⟩ := hexFour?_of_hexUnit h
      show skipString ('\\' :: 'u' :: a :: b :: d :: e :: s) = _
      rw [skipString, hfour]
      rfl
  | pair hlead htrail _ _ _ =>
      -- the two halves are passed over one by one
      obtain ⟨a, b, d, e, rfl, hfour, -⟩ := hexFour?_of_hexUnit hlead
      obtain ⟨a', b', d', e', rfl, hfour', -⟩ := hexFour?_of_hexUnit htrail
      show skipString
        ('\\' :: 'u' :: a :: b :: d :: e :: '\\' :: 'u' :: a' :: b' :: d' :: e' :: s) = _
      rw [skipString, hfour]
      show skipString ('\\' :: 'u' :: a' :: b' :: d' :: e' :: s) = _
      rw [skipString, hfour']
      rfl

/-- **A string is passed over**, up to and including its closing quote. -/
theorem skipString_spelled {cs t : List Char} (h : SpelledString cs t) (s : List Char) :
    skipString (t ++ '"' :: s) = .ok ((), s) := by
  induction h with
  | nil => rfl
  | cons h _ ih => rw [List.append_assoc, skipString_spelledChar h, ih]

/-- A key and its colon are passed over. -/
theorem skipKey_spelled {key : String} {w k w' : List Char} (hw : Blanks w)
    (hkey : SpelledString key.toList k) (hw' : Blanks w') (s : List Char) :
    skipKey (w ++ '"' :: (k ++ '"' :: (w' ++ ':' :: s))) = .ok ((), s) := by
  rw [skipKey, skipBlank_append hw, skipBlank_cons (by decide)]
  show (skipString (k ++ '"' :: (w' ++ ':' :: s)) >>= _) = _
  rw [skipString_spelled hkey]
  exact colon_append hw'

/-- The members of an object start with the quote of a key. -/
theorem exists_quote_of_spelledMembers {members : List (String × Value)} {t : List Char}
    (h : SpelledMembers members t) (s : List Char) : ∃ u, skipBlank (t ++ s) = '"' :: u := by
  cases h with
  | one hw h _ =>
      cases h
      exact ⟨_, skipBlank_between hw (by decide) _ _ s⟩
  | more hw h _ _ =>
      cases h
      rw [List.append_assoc]
      exact ⟨_, skipBlank_between hw (by decide) _ _ _⟩

/-- Blanks before a value do not matter. -/
theorem skipHead_append {w : List Char} (hw : Blanks w) (s : List Char) :
    skipHead (w ++ s) = skipHead s := by
  simp only [skipHead, skipBlank_append hw]

theorem skipHead_skipBlank (s : List Char) : skipHead (skipBlank s) = skipHead s := by
  have htwice : skipBlank (skipBlank s) = skipBlank s := List.dropWhile_idempotent isBlank s
  simp only [skipHead, htwice]

/-- What starts like a numeral is passed over as one. -/
theorem skipHead_of_startsNumeral {c : Char} (h : startsNumeral c = true) (s : List Char) :
    skipHead (c :: s) = (skipNumeral (c :: s) >>= fun p => return (none, p.2)) := by
  have hne : ∀ x : Char, startsNumeral x = false → c ≠ x := fun _ => ne_of_startsNumeral h
  rw [skipHead, skipBlank_cons (isBlank_of_startsNumeral h)]
  -- neither the end, nor one of the six characters that start another value
  split
  · next heq => exact nomatch heq
  · next heq => exact absurd (List.cons.inj heq).1 (hne _ (by decide))
  · next heq => exact absurd (List.cons.inj heq).1 (hne _ (by decide))
  · next heq => exact absurd (List.cons.inj heq).1 (hne _ (by decide))
  · next heq => exact absurd (List.cons.inj heq).1 (hne _ (by decide))
  · next heq => exact absurd (List.cons.inj heq).1 (hne _ (by decide))
  · next heq => exact absurd (List.cons.inj heq).1 (hne _ (by decide))
  · next heq =>
      obtain ⟨rfl, rfl⟩ := List.cons.inj heq
      exact if_pos h

/-- **A numeral is passed over.** -/
theorem skipHead_numeral {n : Numeral} (h : n.IsWritten) {s : List Char} (hs : Follows s) :
    skipHead (n.text.toList ++ s) = .ok (none, s) := by
  have hnumeral := numeral_text h hs
  obtain ⟨c, u, htext, hc⟩ := exists_cons_of_isWritten h
  rw [htext, List.cons_append] at hnumeral ⊢
  rw [skipHead_of_startsNumeral hc, skipNumeral, hnumeral]
  rfl

/-! ## Enclosures -/

section

variable {w s : List Char} {outer : List Enclosure}

/-- A list is closed by its bracket. -/
theorem skipClosing_list (opened : Bool) (hw : Blanks w) :
    skipClosing opened (.list :: outer) (w ++ ']' :: s) = skipClosing false outer s := by
  rw [skipClosing, skipBlank_append hw, skipBlank_cons (by decide)]
  rfl

/-- A list goes on behind a comma. -/
theorem skipClosing_list_comma (hw : Blanks w) :
    skipClosing false (.list :: outer) (w ++ ',' :: s) = .ok (.list :: outer, s) := by
  rw [skipClosing, skipBlank_append hw, skipBlank_cons (by decide)]
  rfl

/-- A list that is not empty goes on at its start. -/
theorem skipClosing_list_first (h : ∃ c u, skipBlank s = c :: u ∧ c ≠ ']') :
    skipClosing true (.list :: outer) s = .ok (.list :: outer, skipBlank s) := by
  obtain ⟨c, u, hs, hc⟩ := h
  rw [skipClosing, hs]
  split
  · next heq => exact nomatch heq
  · next heq => exact absurd (List.cons.inj heq).1 hc
  · next heq => rw [if_pos rfl, ← heq]

/-- An object is closed by its brace. -/
theorem skipClosing_object (opened : Bool) (hw : Blanks w) :
    skipClosing opened (.object :: outer) (w ++ '\x7d' :: s) = skipClosing false outer s := by
  rw [skipClosing, skipBlank_append hw, skipBlank_cons (by decide)]
  rfl

/-- An object goes on behind a comma, with the value of the next key. -/
theorem skipClosing_object_comma (hw : Blanks w) {x : List Char} (hkey : skipKey s = .ok ((), x)) :
    skipClosing false (.object :: outer) (w ++ ',' :: s) = .ok (.object :: outer, x) := by
  rw [skipClosing, skipBlank_append hw, skipBlank_cons (by decide)]
  show (skipKey s >>= _) = _
  rw [hkey]
  rfl

/-- An object that is not empty goes on at its start, with the value of its first key. -/
theorem skipClosing_object_first {u x : List Char} (hs : skipBlank s = '"' :: u)
    (hkey : skipKey s = .ok ((), x)) :
    skipClosing true (.object :: outer) s = .ok (.object :: outer, x) := by
  have hkey' : skipKey ('"' :: u) = .ok ((), x) := by
    rw [← hkey, skipKey, skipKey, hs, skipBlank_cons (by decide)]
  rw [skipClosing, hs]
  show (skipKey ('"' :: u) >>= _) = _
  rw [hkey']
  rfl

end

/-! ## Values -/

/-- **What is done behind a value**: what encloses it is closed, as far as it ends here, and the
    next value is passed over. -/
def skipBehind (bound : Nat) (stack : List Enclosure) : Reader Unit := fun s => do
  let (stack, s) ← skipClosing false stack s
  if stack.isEmpty then return ((), s)
  else
    match bound with
    | 0 => stop .tooDeep s
    | bound + 1 => skipValues bound stack s

section

variable {bound : Nat} {stack stack' : List Enclosure} {e : Enclosure} {s x : List Char}

/-- Closing an enclosure does not take a round. -/
theorem skipBehind_close (h : skipClosing false stack s = skipClosing false stack' x) :
    skipBehind bound stack s = skipBehind bound stack' x := by
  rw [skipBehind, h, skipBehind]

/-- Where an enclosure goes on, the next round starts. -/
theorem skipBehind_next (h : skipClosing false stack s = .ok (e :: stack', x)) :
    skipBehind (bound + 1) stack s = skipValues bound (e :: stack') x := by
  rw [skipBehind, h]
  rfl

theorem skipValues_skipBlank : skipValues bound stack (skipBlank s) = skipValues bound stack s := by
  rw [skipValues.eq_def, skipValues.eq_def, skipHead_skipBlank]

theorem skipValues_append {w : List Char} (hw : Blanks w) :
    skipValues bound stack (w ++ s) = skipValues bound stack s := by
  rw [skipValues.eq_def, skipValues.eq_def, skipHead_append hw]

/-- A scalar takes one round. -/
theorem skipValues_scalar (h : skipHead s = .ok (none, x)) :
    skipValues bound stack s = skipBehind bound stack x := by
  rw [skipValues.eq_def, h]
  rfl

/-- An empty enclosure takes one round. -/
theorem skipValues_empty (h : skipHead s = .ok (some e, x)) {x' : List Char}
    (hclose : skipClosing true (e :: stack) x = skipClosing false stack x') :
    skipValues bound stack s = skipBehind bound stack x' := by
  rw [skipValues.eq_def, h]
  show (skipClosing true (e :: stack) x >>= _) = _
  rw [hclose]
  rfl

/-- An enclosure that is not empty takes one round, and then those of its members. -/
theorem skipValues_open (h : skipHead s = .ok (some e, x)) {x' : List Char}
    (hopen : skipClosing true (e :: stack) x = .ok (e :: stack, x')) :
    skipValues (bound + 1) stack s = skipValues bound (e :: stack) x' := by
  rw [skipValues.eq_def, h]
  show (skipClosing true (e :: stack) x >>= _) = _
  rw [hopen]
  rfl

end

/-- **A text is passed over as a value**: in fewer rounds than it has characters, nothing is left to
    do but what is done behind it. -/
def Passed (t : List Char) : Prop :=
  ∃ rounds < t.length, ∀ bound stack s, Follows s →
    skipValues (rounds + bound) stack (t ++ s) = skipBehind bound stack s

/-- The same of the items of a list, up to and including its bracket. -/
def PassedItems (t : List Char) : Prop :=
  ∃ rounds < t.length, ∀ bound outer s,
    skipValues (rounds + bound) (.list :: outer) (t ++ ']' :: s) = skipBehind bound outer s

/-- The same of a member of an object, behind its key and its colon. -/
def PassedMember (t : List Char) : Prop :=
  ∃ rounds < t.length, ∀ w s, Blanks w → Follows s → ∃ x, skipKey (w ++ (t ++ s)) = .ok ((), x) ∧
    ∀ bound stack, skipValues (rounds + bound) stack x = skipBehind bound stack s

/-- The same of the members of an object, behind the first key and up to and including its brace. -/
def PassedMembers (t : List Char) : Prop :=
  ∃ rounds < t.length, ∀ s, ∃ x, skipKey (t ++ '\x7d' :: s) = .ok ((), x) ∧
    ∀ bound outer, skipValues (rounds + bound) (.object :: outer) x = skipBehind bound outer s

theorem passed_of_scalar {t : List Char} (hne : t ≠ [])
    (h : ∀ s, Follows s → skipHead (t ++ s) = .ok (none, s)) : Passed t := by
  refine ⟨0, List.length_pos_iff.mpr hne, ?_⟩
  intro bound stack s hs
  rw [Nat.zero_add, skipValues_scalar (h s hs)]

/-- A list is passed over if its items are. -/
theorem passed_of_items {items : List Value} {t : List Char} (hspelled : SpelledItems items t)
    (h : PassedItems t) : Passed ('[' :: t ++ [']']) := by
  obtain ⟨rounds, hrounds, hitems⟩ := h
  refine ⟨rounds + 1, ?_, ?_⟩
  · simp only [List.length_append, List.length_cons]
    omega
  · intro bound stack s _
    have hhead : skipHead ('[' :: t ++ [']'] ++ s) = .ok (some .list, t ++ ']' :: s) := by
      rw [List.append_assoc]
      rfl
    have hfirst : skipClosing true (.list :: stack) (t ++ ']' :: s)
        = .ok (.list :: stack, skipBlank (t ++ ']' :: s)) :=
      skipClosing_list_first (exists_cons_of_spelledItems hspelled (']' :: s))
    rw [Nat.add_right_comm, skipValues_open hhead hfirst, skipValues_skipBlank, hitems]

/-- An object is passed over if its members are. -/
theorem passed_of_members {members : List (String × Value)} {t : List Char}
    (hspelled : SpelledMembers members t) (h : PassedMembers t) :
    Passed ('\x7b' :: t ++ ['\x7d']) := by
  obtain ⟨rounds, hrounds, hmembers⟩ := h
  refine ⟨rounds + 1, ?_, ?_⟩
  · simp only [List.length_append, List.length_cons]
    omega
  · intro bound stack s _
    obtain ⟨x, hkey, hvalues⟩ := hmembers s
    have hhead : skipHead ('\x7b' :: t ++ ['\x7d'] ++ s)
        = .ok (some .object, t ++ '\x7d' :: s) := by
      rw [List.append_assoc]
      rfl
    obtain ⟨u, hquote⟩ := exists_quote_of_spelledMembers hspelled ('\x7d' :: s)
    rw [Nat.add_right_comm, skipValues_open hhead (skipClosing_object_first hquote hkey), hvalues]

/-- A member is passed over if its value is. -/
theorem passed_of_value {key : String} {k w w' t : List Char}
    (hkey : SpelledString key.toList k) (hw : Blanks w) (hw' : Blanks w') (h : Passed t) :
    PassedMember ('"' :: k ++ '"' :: w ++ ':' :: w' ++ t) := by
  obtain ⟨rounds, hrounds, hvalue⟩ := h
  refine ⟨rounds, ?_, ?_⟩
  · simp only [List.length_append, List.length_cons]
    omega
  · intro w₀ s hw₀ hs
    refine ⟨w' ++ (t ++ s), ?_, ?_⟩
    · have hparts := skipKey_spelled hw₀ hkey hw (w' ++ (t ++ s))
      simpa only [List.append_assoc, List.cons_append] using hparts
    · intro bound stack
      rw [skipValues_append hw', hvalue bound stack s hs]

mutual

/-- **Every spelled value is passed over**, as a whole. -/
theorem passed_of_spelled {v : Value} {t : List Char} : Spelled v t → Passed t
  | .null => passed_of_scalar (by simp) (fun _ _ => rfl)
  | .true => passed_of_scalar (by simp) (fun _ _ => rfl)
  | .false => passed_of_scalar (by simp) (fun _ _ => rfl)
  | .number h => by
      obtain ⟨c, u, htext, -⟩ := exists_cons_of_isWritten h
      exact passed_of_scalar (by simp [htext]) (fun s hs => skipHead_numeral h hs)
  | .string h => by
      refine passed_of_scalar (by simp) (fun s hs => ?_)
      rw [List.cons_append, List.cons_append, List.append_assoc]
      show (skipString (_ ++ '"' :: s) >>= _) = _
      rw [skipString_spelled h]
      rfl
  | .emptyArray hw => by
      refine ⟨0, by simp, fun bound stack s _ => ?_⟩
      rw [Nat.zero_add, List.cons_append, List.cons_append, List.append_assoc]
      exact skipValues_empty rfl (skipClosing_list true hw)
  | .array h => passed_of_items h (passedItems_of_spelled h)
  | .emptyObject hw => by
      refine ⟨0, by simp, fun bound stack s _ => ?_⟩
      rw [Nat.zero_add, List.cons_append, List.cons_append, List.append_assoc]
      exact skipValues_empty rfl (skipClosing_object true hw)
  | .object h => passed_of_members h (passedMembers_of_spelled h)

theorem passedItems_of_spelled {items : List Value} {t : List Char} :
    SpelledItems items t → PassedItems t
  | .one hw h hw' => by
      obtain ⟨rounds, hrounds, hvalue⟩ := passed_of_spelled h
      refine ⟨rounds, ?_, fun bound outer s => ?_⟩
      · simp only [List.length_append]
        omega
      · have hend := follows_append hw' (follows_cons (Or.inr (Or.inl rfl)) s)
        simp only [List.append_assoc]
        rw [skipValues_append hw, hvalue _ _ _ hend, skipBehind_close (skipClosing_list false hw')]
  | .more hw h hw' hrest => by
      obtain ⟨rounds, hrounds, hvalue⟩ := passed_of_spelled h
      obtain ⟨more, hmore, hitems⟩ := passedItems_of_spelled hrest
      refine ⟨rounds + (more + 1), ?_, fun bound outer s => ?_⟩
      · simp only [List.length_append, List.length_cons]
        omega
      · have hend := fun x => follows_append hw' (follows_cons (c := ',') (Or.inl rfl) x)
        simp only [List.append_assoc, List.cons_append]
        rw [skipValues_append hw, Nat.add_assoc, hvalue _ _ _ (hend _), Nat.add_right_comm,
          skipBehind_next (skipClosing_list_comma hw'), hitems]

theorem passedMember_of_spelled {m : String × Value} {t : List Char} :
    SpelledMember m t → PassedMember t
  | .member hkey hw hw' h => passed_of_value hkey hw hw' (passed_of_spelled h)

theorem passedMembers_of_spelled {members : List (String × Value)} {t : List Char} :
    SpelledMembers members t → PassedMembers t
  | .one hw h hw' => by
      obtain ⟨rounds, hrounds, hmember⟩ := passedMember_of_spelled h
      refine ⟨rounds, ?_, fun s => ?_⟩
      · simp only [List.length_append]
        omega
      · have hend := follows_append hw' (follows_cons (Or.inr (Or.inr rfl)) s)
        obtain ⟨x, hkey, hvalue⟩ := hmember _ _ hw hend
        refine ⟨x, by simpa only [List.append_assoc] using hkey, fun bound outer => ?_⟩
        rw [hvalue, skipBehind_close (skipClosing_object false hw')]
  | .more hw h hw' hrest => by
      obtain ⟨rounds, hrounds, hmember⟩ := passedMember_of_spelled h
      obtain ⟨more, hmore, hmembers⟩ := passedMembers_of_spelled hrest
      refine ⟨rounds + (more + 1), ?_, fun s => ?_⟩
      · simp only [List.length_append, List.length_cons]
        omega
      · have hend := fun x => follows_append hw' (follows_cons (c := ',') (Or.inl rfl) x)
        obtain ⟨y, hnext, hvalues⟩ := hmembers s
        obtain ⟨x, hkey, hvalue⟩ := hmember _ _ hw (hend _)
        refine ⟨x, by simpa only [List.append_assoc, List.cons_append] using hkey,
          fun bound outer => ?_⟩
        rw [Nat.add_assoc, hvalue, Nat.add_right_comm,
          skipBehind_next (skipClosing_object_comma hw' hnext), hvalues]

end

/-- **A value that nothing encloses is passed over**, and what follows it is left. -/
theorem skipValue_spelled {v : Value} {t : List Char} (h : Spelled v t) {bound : Nat}
    (ht : t.length ≤ bound) {s : List Char} (hs : Follows s) :
    skipValue bound (t ++ s) = .ok ((), s) := by
  obtain ⟨rounds, hrounds, hvalue⟩ := passed_of_spelled h
  obtain ⟨more, rfl⟩ := Nat.exists_eq_add_of_le (Nat.le_trans (Nat.le_of_lt hrounds) ht)
  rw [skipValue, hvalue more [] s hs]
  rfl

end Inlay.Json
