import Inlay.Path
import Inlay.Proofs.DefaultMatcher

/-!
# The loader tag of accepted names

The loader tag is recognised twice: by the default matcher, which folds letters, and when a name is
made a path, by the last five bytes in any ASCII letter case. The two differ in **one letter**: the
matcher also takes the long `ſ` for an `s`, and such a tag stays in the path.

* `splitAtByte?_append`: a cut behind whole characters; `stripTag_append`, `stripTag_of_no_tag`: the
  tag that is dropped, told by characters.
* `EndsIn`: a mark and `json` at the end of a text; `EndsIn.mark_eq`: there is one mark at most.
* `stripTag_of_extension`, `stripTag_of_spelled_tag`: names with an extension, and with a tag.
* `accepted_tag_is_dropped_unless_long`: what is left of an accepted name, and its path.
* `long_tag_stays`: a tag with the long letter.
-/

namespace Inlay

/-! ## Cuts between characters -/

namespace Text

theorem byteLength_cons (c : Char) (s : List Char) :
    byteLength (c :: s) = c.utf8Size + byteLength s := rfl

theorem byteLength_append (s t : List Char) :
    byteLength (s ++ t) = byteLength s + byteLength t := by
  induction s with
  | nil => exact (Nat.zero_add _).symm
  | cons c s ih => rw [List.cons_append, byteLength_cons, byteLength_cons, ih, Nat.add_assoc]

theorem byteLength_eq_length {s : List Char} (h : ∀ c ∈ s, c.utf8Size = 1) :
    byteLength s = s.length := by
  induction s with
  | nil => rfl
  | cons c s ih =>
      rw [byteLength_cons, h c List.mem_cons_self,
        ih (fun d hd => h d (List.mem_cons_of_mem c hd)), List.length_cons, Nat.add_comm]

/-- **A cut behind whole characters.** -/
theorem splitAtByte?_append (front back : List Char) :
    splitAtByte? (byteLength front) (front ++ back) = some (front, back) := by
  induction front with
  | nil => cases back <;> rfl
  | cons c front ih =>
      have hpos := c.utf8Size_pos
      rw [List.cons_append, byteLength_cons, splitAtByte?, if_neg (by omega), if_pos (by omega),
        Nat.add_sub_cancel_left, ih]
      rfl

theorem eq_append_of_splitAtByte? {n : Nat} {s front back : List Char}
    (h : splitAtByte? n s = some (front, back)) : s = front ++ back := by
  induction s generalizing n front with
  | nil =>
      rw [splitAtByte?] at h
      split at h <;> cases h
      rfl
  | cons c s ih =>
      rw [splitAtByte?] at h
      split at h
      · cases h
        rfl
      · split at h
        · obtain ⟨⟨front', back'⟩, hsplit, hpair⟩ := Option.map_eq_some_iff.mp h
          cases hpair
          rw [ih hsplit]
          rfl
        · cases h

end Text

/-! ## The tag by characters -/

namespace Path

/-- Only an ASCII letter is changed in case, so what spells the tag takes one byte a letter. -/
theorem utf8Size_of_toLower_mem_tag {c : Char} (h : c.toLower ∈ tag) : c.utf8Size = 1 := by
  have hall : (tag.all fun d => d.val ≤ 127) = true := by decide
  have hlower : c.toLower.val ≤ 127 := by simpa using List.all_eq_true.mp hall _ h
  rw [Char.utf8Size_eq_one_iff]
  by_cases hupper : c.val ≥ 'A'.val ∧ c.val ≤ 'Z'.val
  · exact UInt32.le_trans hupper.2 (by decide)
  · have hsame : c.toLower = c := dif_neg hupper
    rwa [hsame] at hlower

theorem length_of_tag {back : List Char} (h : back.map Char.toLower = tag) : back.length = 5 := by
  rw [← List.length_map Char.toLower, h]
  rfl

theorem byteLength_of_tag {back : List Char} (h : back.map Char.toLower = tag) :
    Text.byteLength back = 5 := by
  have hsize : ∀ c ∈ back, c.utf8Size = 1 := by
    intro c hc
    exact utf8Size_of_toLower_mem_tag (h ▸ List.mem_map_of_mem hc)
  rw [Text.byteLength_eq_length hsize, length_of_tag h]

/-- **The tag is dropped**, in any ASCII letter case. -/
theorem stripTag_append (front : List Char) {back : List Char}
    (h : back.map Char.toLower = tag) : stripTag (front ++ back) = front := by
  have hsize : Text.byteLength (front ++ back) = Text.byteLength front + 5 := by
    rw [Text.byteLength_append, byteLength_of_tag h]
  simp only [stripTag, hsize]
  rw [if_neg (by omega), Nat.add_sub_cancel, Text.splitAtByte?_append]
  exact if_pos h

/-- **Nothing else is dropped.** -/
theorem stripTag_of_no_tag {name : List Char}
    (h : ∀ front back, name = front ++ back → back.map Char.toLower ≠ tag) :
    stripTag name = name := by
  simp only [stripTag]
  split
  · rfl
  · split
    · rename_i front back hsplit
      exact if_neg (h front back (Text.eq_append_of_splitAtByte? hsplit))
    · rfl

/-! ## Paths -/

theorem exists_join_eq (folder path : List Char) : ∃ before, join folder path = before ++ path := by
  rw [join]
  split
  · exact ⟨[], rfl⟩
  · split
    · exact ⟨folder, rfl⟩
    · exact ⟨folder ++ ['/'], by simp⟩

/-- A path ends in the name it was made of, whatever stands before it. -/
theorem exists_resolve_eq (module : String) (file : Option String) :
    ∃ before, (resolve module file).toList = before ++ stripTag module.toList := by
  simp only [resolve, String.toList_ofList]
  split
  · exact exists_join_eq _ _
  · exact ⟨[], rfl⟩

end Path

/-! ## Names with a tag -/

/-- **The text ends in a mark and `json`**, each letter in one of its forms. -/
def EndsIn (mark : Char) (s : List Char) : Prop :=
  ∃ front word, s = front ++ mark :: word ∧ SpellsJson word

/-- **The text ends in a tag with the long letter.** -/
def HasLongTag (s : List Char) : Prop :=
  ∃ name word, s = name ++ '!' :: word ∧ SpellsJson word ∧ 'ſ' ∈ word

theorem SpellsJson.length_eq {word : List Char} (h : SpellsJson word) : word.length = 4 :=
  (List.Forall₂.length_eq h).symm

/-- All spellings have the same length, so a text is cut before its ending in one way only. -/
theorem eq_of_spelled_endings {front front' word word' : List Char} {mark mark' : Char}
    (h : front ++ mark :: word = front' ++ mark' :: word') (hword : word.length = 4)
    (hword' : word'.length = 4) : front = front' ∧ mark = mark' ∧ word = word' := by
  obtain ⟨hfront, hback⟩ := List.append_inj' h (by simp [hword, hword'])
  exact ⟨hfront, List.cons.inj hback⟩

namespace EndsIn

variable {mark mark' : Char} {s : List Char}

theorem mark_eq (h : EndsIn mark s) (h' : EndsIn mark' s) : mark = mark' := by
  obtain ⟨front, word, rfl, hword⟩ := h
  obtain ⟨front', word', heq, hword'⟩ := h'
  exact (eq_of_spelled_endings heq hword.length_eq hword'.length_eq).2.1

theorem append_left (h : EndsIn mark s) (before : List Char) : EndsIn mark (before ++ s) := by
  obtain ⟨front, word, rfl, hword⟩ := h
  exact ⟨before ++ front, word, by simp, hword⟩

end EndsIn

theorem HasLongTag.endsIn {s : List Char} (h : HasLongTag s) : EndsIn '!' s := by
  obtain ⟨name, word, hs, hword, -⟩ := h
  exact ⟨name, word, hs, hword⟩

/-- Without the long form, letters are spelled in ASCII. -/
theorem map_toLower_of_spells {letters word : List Char}
    (hletters : ∀ letter ∈ letters, letter.toLower = letter ∧ letter.toUpper.toLower = letter)
    (h : Spells letters word) (hlong : 'ſ' ∉ word) : word.map Char.toLower = letters := by
  induction h with
  | nil => rfl
  | @cons letter c letters word hform _ ih =>
      obtain ⟨hlower, hupper⟩ := hletters letter List.mem_cons_self
      have hc : c.toLower = letter := by
        rcases hform with rfl | rfl | ⟨-, rfl⟩
        · exact hlower
        · exact hupper
        · exact absurd List.mem_cons_self hlong
      rw [List.map_cons, hc, ih (fun letter hmem => hletters letter (List.mem_cons_of_mem _ hmem))
        (fun hmem => hlong (List.mem_cons_of_mem c hmem))]

/-- What could be dropped of a text that ends in a mark and `json` is just that. -/
theorem eq_ending_of_tag {name word front back : List Char} {mark : Char}
    (h : name ++ mark :: word = front ++ back) (hword : SpellsJson word)
    (hback : back.map Char.toLower = Path.tag) : back = mark :: word := by
  have hlength : (mark :: word).length = back.length := by
    rw [Path.length_of_tag hback, List.length_cons, hword.length_eq]
  exact (List.append_inj' h hlength).2.symm

/-- A name that ends in the extension stays as it is. -/
theorem stripTag_of_extension {name : List Char} (h : EndsIn '.' name) :
    Path.stripTag name = name := by
  obtain ⟨front, word, rfl, hword⟩ := h
  refine Path.stripTag_of_no_tag ?_
  intro front' back heq hback
  obtain rfl := eq_ending_of_tag heq hword hback
  cases hback

/-- **The tag of a name is dropped unless it has the long letter.** -/
theorem stripTag_of_spelled_tag (name : List Char) {word : List Char} (h : SpellsJson word) :
    Path.stripTag (name ++ '!' :: word)
      = if 'ſ' ∈ word then name ++ '!' :: word else name := by
  split
  case isTrue hlong =>
      refine Path.stripTag_of_no_tag ?_
      intro front back heq hback
      obtain rfl := eq_ending_of_tag heq h hback
      -- the long letter has no other ASCII case, and is none of the letters of the tag
      have hmem : 'ſ'.toLower ∈ Path.tag :=
        hback ▸ List.mem_map_of_mem (List.mem_cons_of_mem '!' hlong)
      exact absurd hmem (by decide)
  case isFalse hlong =>
      refine Path.stripTag_append name ?_
      rw [List.map_cons, map_toLower_of_spells (by simp) h hlong]
      rfl

/-! ## Accepted names -/

/-- An accepted name ends in the extension, or in a tag behind the extension. -/
theorem exists_of_accepts_default {m : String} (h : Matcher.default.accepts m = true) :
    EndsIn '.' m.toList ∨
      ∃ name word, m.toList = name ++ '!' :: word ∧ SpellsJson word ∧ EndsIn '.' name := by
  obtain ⟨front, word, back, htext, htakes⟩ := (Pattern.isMatch_iff _ _).mp h
  obtain ⟨rfl, ext, tag, rfl, hext, htag⟩ := Matcher.takes_default_iff.mp htakes
  rcases htag with rfl | ⟨word, rfl, hword⟩
  · exact Or.inl ⟨front, ext, by simpa using htext, hext⟩
  · exact Or.inr ⟨front ++ '.' :: ext, word, by simpa using htext, hword, front, ext, rfl, hext⟩

/-- **What is left of an accepted name** ends in the extension, unless the name has a tag with the
    long letter; then nothing is dropped, and what is left ends in the tag. -/
theorem endsIn_stripTag {m : String} (h : Matcher.default.accepts m = true) :
    (¬ HasLongTag m.toList ∧ EndsIn '.' (Path.stripTag m.toList)) ∨
      (HasLongTag m.toList ∧ EndsIn '!' (Path.stripTag m.toList)) := by
  rcases exists_of_accepts_default h with hext | ⟨name, word, hm, hword, hname⟩
  · refine Or.inl ⟨?_, by rwa [stripTag_of_extension hext]⟩
    intro hlong
    exact absurd (hlong.endsIn.mark_eq hext) (by decide)
  · have hstrip := stripTag_of_spelled_tag name hword
    rw [← hm] at hstrip
    by_cases hlong : 'ſ' ∈ word
    · refine Or.inr ⟨⟨name, word, hm, hword, hlong⟩, ?_⟩
      rw [hstrip, if_pos hlong]
      exact ⟨name, word, hm, hword⟩
    · refine Or.inl ⟨?_, by rwa [hstrip, if_neg hlong]⟩
      rintro ⟨name', word', hm', hword', hlong'⟩
      obtain ⟨-, -, rfl⟩ :=
        eq_of_spelled_endings (hm.symm.trans hm') hword.length_eq hword'.length_eq
      exact hlong hlong'

/-- **The tag of an accepted name is dropped unless it has the long letter.** What is left of the
    name, and the path it is read from, end in the extension exactly if the name has no such tag. A
    tag without the long letter is dropped as a whole, and nothing is dropped otherwise. -/
theorem accepted_tag_is_dropped_unless_long (m : String) (file : Option String)
    (h : Matcher.default.accepts m = true) :
    (EndsIn '.' (Path.stripTag m.toList) ↔ ¬ HasLongTag m.toList) ∧
    (EndsIn '.' (Path.resolve m file).toList ↔ ¬ HasLongTag m.toList) ∧
    (EndsIn '.' m.toList → Path.stripTag m.toList = m.toList) ∧
    ∀ name word, m.toList = name ++ '!' :: word → SpellsJson word →
      Path.stripTag m.toList = if 'ſ' ∈ word then m.toList else name := by
  have hends : ∀ before,
      EndsIn '.' (before ++ Path.stripTag m.toList) ↔ ¬ HasLongTag m.toList := by
    intro before
    rcases endsIn_stripTag h with ⟨hshort, hext⟩ | ⟨hlong, htag⟩
    · exact iff_of_true (hext.append_left before) hshort
    · refine iff_of_false ?_ (not_not_intro hlong)
      intro hext
      exact absurd ((htag.append_left before).mark_eq hext) (by decide)
  refine ⟨hends [], ?_, stripTag_of_extension, ?_⟩
  · obtain ⟨before, hpath⟩ := Path.exists_resolve_eq m file
    rw [hpath]
    exact hends before
  · intro name word hm hword
    rw [hm]
    exact stripTag_of_spelled_tag name hword

/-- A tag in other ASCII letter cases is dropped. -/
theorem mixed_case_tag_is_dropped :
    Matcher.default.accepts "a.JSON!Json" = true ∧
      EndsIn '.' (Path.resolve "a.JSON!Json" (some "src/x.js")).toList := by
  have haccepts : Matcher.default.accepts "a.JSON!Json" = true := by decide +kernel
  refine ⟨haccepts, ?_⟩
  refine (accepted_tag_is_dropped_unless_long "a.JSON!Json" (some "src/x.js") haccepts).2.1.mpr ?_
  rintro ⟨name, word, hm, -, hlong⟩
  have hmem : 'ſ' ∈ "a.JSON!Json".toList := by
    rw [hm]
    exact List.mem_append_right name (List.mem_cons_of_mem '!' hlong)
  exact absurd hmem (by decide)

/-- **A tag with the long letter stays**: the name is accepted, nothing is dropped, and the tag is
    part of the path. -/
theorem long_tag_stays :
    Matcher.default.accepts "a.json!jſon" = true ∧
      ¬ EndsIn '.' (Path.stripTag "a.json!jſon".toList) ∧
      Path.resolve "a.json!jſon" none = "a.json!jſon" := by
  have hword : SpellsJson ['j', 'ſ', 'o', 'n'] :=
    .cons (Or.inl rfl) (.cons (Or.inr (Or.inr ⟨rfl, rfl⟩)) (.cons (Or.inl rfl)
      (.cons (Or.inl rfl) .nil)))
  have htag : EndsIn '!' (Path.stripTag "a.json!jſon".toList) :=
    ⟨"a.json".toList, ['j', 'ſ', 'o', 'n'], by decide +kernel, hword⟩
  refine ⟨by decide +kernel, ?_, by decide +kernel⟩
  intro hext
  exact absurd (htag.mark_eq hext) (by decide)

end Inlay
