import Inlay.Matcher
import Inlay.Proofs.Matching

/-!
# Flags of a pattern

The flags of the settings are a row of letters. Only three of them change anything, and what they
change can be written into the pattern as well, by a group of these letters in front of it. The
group leaves a part that takes nothing, first of all parts; so the two ways to give flags lead to
patterns that take the same words.

* `readFlags_of_allowed`, `readFlags_of_forbidden`: a row of letters is read, or stops at the first
  letter that is none of a flag.
* `token?`, `parts_succ`: reading a pattern goes from token to token.
* `Marked`, `parts_marked`: a part that takes nothing in front of all others stays there until the
  end, where it does not matter.
* `flags_are_their_letters`: what the flags of the settings do.
-/

namespace Inlay

namespace Pattern

/-! ## Letters -/

/-- The letters that change how a pattern is read. -/
def effectiveLetters : List Char := ['i', 'm', 's']

/-- The letters that may stand in flags. -/
def flagLetters : List Char := effectiveLetters ++ ['u', 'g', 'y']

theorem mem_effectiveLetters {c : Char} : c ∈ effectiveLetters ↔ c = 'i' ∨ c = 'm' ∨ c = 's' := by
  simp [effectiveLetters]

theorem mem_flagLetters {c : Char} :
    c ∈ flagLetters ↔ c = 'i' ∨ c = 'm' ∨ c = 's' ∨ c = 'u' ∨ c = 'g' ∨ c = 'y' := by
  simp [flagLetters, effectiveLetters]

/-- **Flags with those of some letters** switched on. -/
def Flags.adding (flags : Flags) (letters : List Char) : Flags :=
  { flags with
    caseless := flags.caseless || letters.contains 'i'
    multiLine := flags.multiLine || letters.contains 'm'
    dotAll := flags.dotAll || letters.contains 's' }

@[simp] theorem Flags.adding_nil (flags : Flags) : flags.adding [] = flags := by
  simp [Flags.adding]

/-- Letters are switched on one by one. -/
theorem Flags.adding_cons (flags : Flags) (c : Char) (letters : List Char) :
    flags.adding (c :: letters) = (flags.adding [c]).adding letters := by
  simp [Flags.adding, Bool.or_assoc]

/-- **Only which letters occur counts.** -/
theorem Flags.adding_congr {letters letters' : List Char}
    (h : ∀ c ∈ effectiveLetters, c ∈ letters ↔ c ∈ letters') (flags : Flags) :
    flags.adding letters = flags.adding letters' := by
  have hcontains : ∀ c ∈ effectiveLetters, letters.contains c = letters'.contains c := by
    intro c hc
    rw [Bool.eq_iff_iff, List.contains_iff_mem, List.contains_iff_mem]
    exact h c hc
  rw [Flags.adding, Flags.adding, hcontains 'i' (by decide), hcontains 'm' (by decide),
    hcontains 's' (by decide)]

/-- The letter of a group switches on the same flag. -/
theorem Flags.switch_on {c : Char} (hc : c ∈ effectiveLetters) (flags : Flags) :
    flags.switch true c = some (flags.adding [c]) := by
  rcases mem_effectiveLetters.mp hc with rfl | rfl | rfl <;> simp [Flags.switch, Flags.adding]

end Pattern

namespace Matcher

open Pattern

/-- A letter of a flag is added. -/
theorem readFlags_cons {c : Char} (hc : c ∈ flagLetters) (flags : Flags) (rest : List Char) :
    readFlags flags (c :: rest) = readFlags (flags.adding [c]) rest := by
  rcases mem_flagLetters.mp hc with rfl | rfl | rfl | rfl | rfl | rfl <;>
    simp [readFlags, Flags.adding]

/-- **Letters of flags are read**, and those that change something are switched on. -/
theorem readFlags_of_allowed {letters : List Char} (h : ∀ c ∈ letters, c ∈ flagLetters)
    (flags : Flags) : readFlags flags letters = .ok (flags.adding letters) := by
  induction letters generalizing flags with
  | nil => rw [readFlags, Flags.adding_nil]
  | cons c rest ih =>
      rw [readFlags_cons (h c List.mem_cons_self), Flags.adding_cons _ c rest]
      exact ih (fun c hc => h c (List.mem_cons_of_mem _ hc)) _

/-- **Reading flags stops at the first letter that is none of a flag.** -/
theorem readFlags_of_forbidden {front : List Char} (h : ∀ c ∈ front, c ∈ flagLetters) {c : Char}
    (hc : c ∉ flagLetters) (back : List Char) (flags : Flags) :
    readFlags flags (front ++ c :: back) = .error (.badFlag c) := by
  induction front generalizing flags with
  | nil =>
      rw [mem_flagLetters, not_or, not_or, not_or, not_or, not_or] at hc
      obtain ⟨hi, hm, hs, hu, hg, hy⟩ := hc
      rw [List.nil_append, readFlags, if_neg (by simp [hu, hg, hy])]
      exacts [hi, hm, hs]
  | cons d front ih =>
      rw [List.cons_append, readFlags_cons (h d List.mem_cons_self)]
      exact ih (fun c hc => h c (List.mem_cons_of_mem _ hc)) _

end Matcher

namespace Pattern

/-! ## Tokens -/

/-- **What stands next in a pattern**, and what follows it. -/
inductive Token where
  | stop (rest : List Char)
  | bar (rest : List Char)
  | change (flags : Flags) (rest : List Char)
  | group (inner : Flags) (name : Option (List Char)) (rest : List Char)
  | again (lo : Nat) (hi : Option Nat) (rest : List Char)
  | part (p : Piece) (rest : List Char)

/-- The token of the head of a group. -/
def GroupHead.token : GroupHead × List Char → Token
  | (.change flags, rest) => .change flags rest
  | (.group inner name, rest) => .group inner name rest

/-- **Reads the next token**, if the pattern can go on like this. -/
def token? (flags : Flags) (s : List Char) : Option Token :=
  match flags.skip s with
  | [] => some (.stop [])
  | ')' :: rest => some (.stop (')' :: rest))
  | '|' :: rest => some (.bar rest)
  | '(' :: rest => (groupHead flags rest).map GroupHead.token
  | '[' :: rest =>
    (bracketClass flags rest).map fun (p, rest) =>
      .part ⟨.atom (.char p.set), p.height, true⟩ rest
  | rest =>
    (repetition flags rest).bind fun
      | some ((lo, hi), rest) => some (.again lo hi rest)
      | none => (primitive flags rest).map fun (a, rest) => .part (.ofAtom a) rest

/-- **How reading goes on** behind a token. -/
def Token.follow (bound : Nat) (flags : Flags) (names : List (List Char))
    (branches items : List Piece) : Token → Option (Piece × List (List Char) × List Char)
  | .stop rest => some (.alternatives (.concat items :: branches), names, rest)
  | .bar rest => parts bound flags names (.concat items :: branches) [] rest
  | .change flags rest => parts bound flags names branches (.flagChange :: items) rest
  | .group inner name rest =>
    (addName names name).bind fun names =>
      (parts bound inner names [] [] rest).bind fun
        | (body, names, ')' :: rest) =>
          parts bound flags names branches (body.group :: items) rest
        | _ => none
  | .again lo hi rest =>
    (Piece.repeatLast lo hi items).bind fun items => parts bound flags names branches items rest
  | .part p rest => parts bound flags names branches (p :: items) rest

section

variable {flags : Flags} {names : List (List Char)} {branches items branches' items' : List Piece}
  {s : List Char} {r : Piece × List (List Char) × List Char}

/-- **Reading a pattern goes from token to token.** -/
theorem parts_succ (bound : Nat) (flags : Flags) (names : List (List Char))
    (branches items : List Piece) (s : List Char) :
    parts (bound + 1) flags names branches items s
      = (token? flags s).bind (Token.follow bound flags names branches items) := by
  rw [parts]
  generalize hs : flags.skip s = t
  split
  · rw [token?, hs]
    rfl
  · rw [token?, hs]
    rfl
  · rw [token?, hs]
    rfl
  · next rest =>
      rw [token?, hs]
      show _ = ((groupHead flags rest).map GroupHead.token).bind _
      cases groupHead flags rest with
      | none => rfl
      | some p =>
          obtain ⟨head, rest⟩ := p
          cases head <;> rfl
  · next rest =>
      rw [token?, hs]
      show _ = ((bracketClass flags rest).map _).bind _
      cases bracketClass flags rest <;> rfl
  · next hnil hclose hbar hopen hbracket =>
      rw [token?, hs]
      split
      · exact absurd rfl hnil
      · exact absurd rfl (hclose _)
      · exact absurd rfl (hbar _)
      · exact absurd rfl (hopen _)
      · exact absurd rfl (hbracket _)
      · cases repetition flags t with
        | none => rfl
        | some found =>
            cases found with
            | some _ => rfl
            | none => cases primitive flags t <;> rfl

/-- **A greater bound changes nothing** where reading comes to its end. -/
theorem parts_mono {bound bound' : Nat} (hbound : bound ≤ bound')
    (h : parts bound flags names branches items s = some r) :
    parts bound' flags names branches items s = some r := by
  induction bound generalizing bound' flags names branches items s r with
  | zero => exact nomatch h
  | succ bound ih =>
      obtain ⟨bound', rfl⟩ := Nat.exists_eq_add_one_of_ne_zero (Nat.ne_zero_of_lt hbound)
      have hless : bound ≤ bound' := Nat.le_of_succ_le_succ hbound
      rw [parts_succ] at h ⊢
      obtain ⟨token, htoken, h⟩ := Option.bind_eq_some_iff.mp h
      rw [htoken, Option.bind_some]
      cases token with
      | stop rest => exact h
      | bar rest => exact ih hless h
      | change flags rest => exact ih hless h
      | part p rest => exact ih hless h
      | again lo hi rest =>
          obtain ⟨items', hitems, h⟩ := Option.bind_eq_some_iff.mp h
          exact Option.bind_eq_some_iff.mpr ⟨items', hitems, ih hless h⟩
      | group inner name rest =>
          obtain ⟨names', hnames, h⟩ := Option.bind_eq_some_iff.mp h
          obtain ⟨body, hbody, h⟩ := Option.bind_eq_some_iff.mp h
          refine Option.bind_eq_some_iff.mpr ⟨names', hnames, ?_⟩
          refine Option.bind_eq_some_iff.mpr ⟨body, ih hless hbody, ?_⟩
          split at h
          · exact ih hless h
          · exact nomatch h

/-! ## A part that takes nothing in front of all others -/

/-- **Two states of reading that differ by a change of flags** in front of all parts. Behind a bar
    the first branch has it; the other branches are those of both. -/
inductive Marked : List Piece → List Piece → List Piece → List Piece → Prop where
  | here (items : List Piece) : Marked [] items [] (items ++ [.flagChange])
  | behind (branches items first : List Piece) :
      Marked (branches ++ [.concat first]) items
        (branches ++ [.concat (first ++ [.flagChange])]) items

namespace Marked

theorem bar (h : Marked branches items branches' items') :
    Marked (.concat items :: branches) [] (.concat items' :: branches') [] := by
  cases h with
  | here => exact .behind [] [] items
  | behind branches _ first => exact .behind (.concat items :: branches) [] first

theorem push (h : Marked branches items branches' items') (p : Piece) :
    Marked branches (p :: items) branches' (p :: items') := by
  cases h with
  | here => exact .here (p :: items)
  | behind branches _ first => exact .behind branches (p :: items) first

/-- The change of flags cannot be repeated, so what can be repeated stands in both states. -/
theorem repeatLast (h : Marked branches items branches' items') {lo : Nat} {hi : Option Nat}
    {repeated : List Piece} (hrepeat : Piece.repeatLast lo hi items = some repeated) :
    ∃ repeated', Piece.repeatLast lo hi items' = some repeated' ∧
      Marked branches repeated branches' repeated' := by
  cases h with
  | behind branches _ first => exact ⟨repeated, hrepeat, .behind branches repeated first⟩
  | here =>
      cases items with
      | nil => exact nomatch hrepeat
      | cons p ps =>
          rw [Piece.repeatLast] at hrepeat
          split at hrepeat
          · next hp =>
              cases hrepeat
              exact ⟨_, by rw [List.cons_append, Piece.repeatLast, if_pos hp]; rfl, .here _⟩
          · exact nomatch hrepeat

end Marked

variable {front word back : List Char}

theorem regex_concat_cons (p : Piece) (ps : List Piece) :
    (Piece.concat (p :: ps)).regex = ps.foldl (fun r q => .seq q.regex r) p.regex := by
  cases ps <;> rfl

theorem regex_alternatives_cons (p : Piece) (ps : List Piece) :
    (Piece.alternatives (p :: ps)).regex = ps.foldl (fun r q => .alt q.regex r) p.regex := by
  cases ps <;> rfl

/-- **A change of flags takes nothing.** -/
theorem takes_concat_flagChange (items : List Piece) :
    (Piece.concat (items ++ [.flagChange])).regex.Takes front word back ↔
      (Piece.concat items).regex.Takes front word back := by
  cases items with
  | nil => exact Iff.rfl
  | cons p ps =>
      rw [List.cons_append, regex_concat_cons, regex_concat_cons, List.foldl_append]
      exact then_nil_left

/-- The branch that stands first in a pattern is one of the alternatives. -/
theorem takes_alternatives_append (branches : List Piece) (hbranches : branches ≠ []) (p : Piece) :
    (Piece.alternatives (branches ++ [p])).regex.Takes front word back ↔
      p.regex.Takes front word back ∨
        (Piece.alternatives branches).regex.Takes front word back := by
  cases branches with
  | nil => exact absurd rfl hbranches
  | cons q qs =>
      rw [List.cons_append, regex_alternatives_cons, regex_alternatives_cons, List.foldl_append]
      exact Iff.rfl

/-- **At the end both states take the same words.** -/
theorem Marked.takes_iff (h : Marked branches items branches' items') :
    (Piece.alternatives (.concat items' :: branches')).regex.Takes front word back ↔
      (Piece.alternatives (.concat items :: branches)).regex.Takes front word back := by
  cases h with
  | here => exact takes_concat_flagChange items
  | behind branches _ first =>
      rw [← List.cons_append, ← List.cons_append,
        takes_alternatives_append _ (List.cons_ne_nil _ _),
        takes_alternatives_append _ (List.cons_ne_nil _ _), takes_concat_flagChange]

/-- **Reading goes the same way** from two such states, and the patterns take the same words. -/
theorem parts_marked {bound : Nat} {p : Piece} {names' : List (List Char)} {rest : List Char}
    (h : parts bound flags names branches items s = some (p, names', rest))
    (hmarked : Marked branches items branches' items') :
    ∃ p', parts bound flags names branches' items' s = some (p', names', rest) ∧
      ∀ front word back, p'.regex.Takes front word back ↔ p.regex.Takes front word back := by
  -- the state changes with every token; what stands inside a group does not know of it
  induction bound generalizing flags names branches items branches' items' s with
  | zero => exact nomatch h
  | succ bound ih =>
      rw [parts_succ] at h ⊢
      obtain ⟨token, htoken, h⟩ := Option.bind_eq_some_iff.mp h
      rw [htoken, Option.bind_some]
      cases token with
      | stop rest =>
          cases h
          exact ⟨_, rfl, fun _ _ _ => hmarked.takes_iff⟩
      | bar rest => exact ih h hmarked.bar
      | change flags rest => exact ih h (hmarked.push _)
      | part p rest => exact ih h (hmarked.push p)
      | again lo hi rest =>
          obtain ⟨repeated, hrepeat, h⟩ := Option.bind_eq_some_iff.mp h
          obtain ⟨repeated', hrepeat', hmarked'⟩ := hmarked.repeatLast hrepeat
          rw [Token.follow, hrepeat', Option.bind_some]
          exact ih h hmarked'
      | group inner name rest =>
          obtain ⟨names', hnames, h⟩ := Option.bind_eq_some_iff.mp h
          obtain ⟨body, hbody, h⟩ := Option.bind_eq_some_iff.mp h
          rw [Token.follow, hnames, Option.bind_some, hbody, Option.bind_some]
          split at h
          · exact ih h (hmarked.push _)
          · exact nomatch h

end

/-! ## A group of letters -/

/-- **A group of letters** in front of a pattern; without letters there is no group. -/
def inlineGroup (letters : List Char) : String :=
  if letters.isEmpty then "" else "(?" ++ String.ofList letters ++ ")"

/-- **A list of letters switches them on**, if none is given twice. -/
theorem flagList_letters {letters seen : List Char} (hletters : ∀ c ∈ letters, c ∈ effectiveLetters)
    (hnodup : letters.Nodup) (hseen : ∀ c ∈ seen, c ∈ effectiveLetters ∧ c ∉ letters)
    (hsome : seen ≠ [] ∨ letters ≠ []) (flags : Flags) (s : List Char) :
    flagList flags true seen (letters ++ ')' :: s) = some (.change (flags.adding letters), s) := by
  induction letters generalizing seen flags with
  | nil =>
      obtain ⟨c, seen, rfl⟩ := List.exists_cons_of_ne_nil (hsome.resolve_right fun h => h rfl)
      have hdash : c ≠ '-' := by
        rintro rfl
        exact absurd (hseen '-' List.mem_cons_self).1 (by decide)
      simp [flagList, hdash]
  | cons c letters ih =>
      have hc := hletters c List.mem_cons_self
      have hcolon : c ≠ ':' := ne_of_mem_of_not_mem hc (by decide)
      have hclose : c ≠ ')' := ne_of_mem_of_not_mem hc (by decide)
      have hdash : c ≠ '-' := ne_of_mem_of_not_mem hc (by decide)
      have hnew : c ∉ seen := fun hmem => (hseen c hmem).2 List.mem_cons_self
      obtain ⟨hfresh, hnodup⟩ := List.nodup_cons.mp hnodup
      have hseen' : ∀ d ∈ c :: seen, d ∈ effectiveLetters ∧ d ∉ letters := by
        intro d hd
        obtain rfl | hd := List.mem_cons.mp hd
        · exact ⟨hc, hfresh⟩
        · exact ⟨(hseen d hd).1, fun h => (hseen d hd).2 (List.mem_cons_of_mem _ h)⟩
      rw [List.cons_append, flagList, if_neg hcolon, if_neg hclose,
        if_neg (by simpa using hnew), if_neg hdash, Flags.switch_on hc]
      show flagList (flags.adding [c]) true (c :: seen) _ = _
      rw [ih (fun d hd => hletters d (List.mem_cons_of_mem _ hd)) hnodup hseen'
        (.inl (List.cons_ne_nil _ _)), ← Flags.adding_cons]

/-- **A group of letters changes the flags** for all that follows. -/
theorem token?_inlineGroup {letters : List Char} (hletters : ∀ c ∈ letters, c ∈ effectiveLetters)
    (hnodup : letters.Nodup) (hsome : letters ≠ []) (s : List Char) :
    token? {} ((inlineGroup letters).toList ++ s) = some (.change (Flags.adding {} letters) s) := by
  have htext : (inlineGroup letters).toList ++ s = '(' :: '?' :: (letters ++ ')' :: s) := by
    simp [inlineGroup, hsome]
  have hhead : groupHead {} ('?' :: (letters ++ ')' :: s))
      = flagList {} true [] (letters ++ ')' :: s) := by
    obtain ⟨c, letters, rfl⟩ := List.exists_cons_of_ne_nil hsome
    rcases mem_effectiveLetters.mp (hletters c List.mem_cons_self) with rfl | rfl | rfl <;> rfl
  rw [htext]
  show (groupHead {} ('?' :: (letters ++ ')' :: s))).map GroupHead.token = _
  rw [hhead, flagList_letters hletters hnodup (fun _ h => absurd h List.not_mem_nil) (.inr hsome)]
  rfl

/-- Behind the group, reading goes on in the pattern, with a part that takes nothing. -/
theorem parts_inlineGroup {letters : List Char} (hletters : ∀ c ∈ letters, c ∈ effectiveLetters)
    (hnodup : letters.Nodup) (hsome : letters ≠ []) (bound : Nat) (s : List Char) :
    parts (bound + 1) {} [] [] [] ((inlineGroup letters).toList ++ s)
      = parts bound (Flags.adding {} letters) [] [] [.flagChange] s := by
  rw [parts_succ, token?_inlineGroup hletters hnodup hsome]
  rfl

/-- What reading a pattern gives is what its parts give. -/
theorem exists_parts_of_parse? {flags : Flags} {pattern : String} {r : Regex Atom}
    (h : parse? flags pattern = some r) :
    ∃ p names, parts (pattern.toList.length + 1) flags [] [] [] pattern.toList
        = some (p, names, []) ∧ p.regex = r := by
  rw [parse?] at h
  obtain ⟨⟨p, names, rest⟩, hparts, h⟩ := Option.bind_eq_some_iff.mp h
  cases rest with
  | cons c rest => exact nomatch h
  | nil =>
      dsimp only at h
      split at h
      · exact ⟨p, names, hparts, Option.some.inj h⟩
      · exact nomatch h

/-- **Flags and a group of their letters lead to the same words.** -/
theorem takes_inlineGroup {letters : List Char} (hletters : ∀ c ∈ letters, c ∈ effectiveLetters)
    (hnodup : letters.Nodup) {pattern : String} {r r' : Regex Atom}
    (h : parse? (Flags.adding {} letters) pattern = some r)
    (h' : parse? {} (inlineGroup letters ++ pattern) = some r') (front word back : List Char) :
    r'.Takes front word back ↔ r.Takes front word back := by
  by_cases hsome : letters = []
  · subst hsome
    rw [Flags.adding_nil] at h
    rw [inlineGroup, List.isEmpty_nil, if_pos rfl, String.empty_append, h] at h'
    cases h'
    exact Iff.rfl
  · obtain ⟨p, names, hparts, rfl⟩ := exists_parts_of_parse? h
    obtain ⟨p', names', hparts', rfl⟩ := exists_parts_of_parse? h'
    have hmarked : Marked [] [] [] [.flagChange] := .here []
    obtain ⟨q, hq, htakes⟩ := parts_marked hparts hmarked
    rw [String.toList_append, parts_inlineGroup hletters hnodup hsome,
      parts_mono (by simp [inlineGroup, hsome]; omega) hq] at hparts'
    cases hparts'
    exact htakes front word back

end Pattern

namespace Matcher

open Pattern

section

variable {pattern flags : String}

/-- With a pattern, flags are read first. -/
theorem ofSettings_some (hpattern : pattern ≠ "") :
    ofSettings ⟨some pattern, some flags⟩
      = (readFlags {} flags.toList >>= fun flags => ofPattern flags pattern) := by
  have hempty : pattern.isEmpty = false := by
    rw [← Bool.not_eq_true, String.isEmpty_iff]
    exact hpattern
  show (if pattern.isEmpty = true then _ else _) = _
  rw [hempty]
  rfl

/-- **Allowed flags** leave it to the pattern whether there is a matcher. -/
theorem ofSettings_of_allowed (hpattern : pattern ≠ "")
    (h : ∀ c ∈ flags.toList, c ∈ flagLetters) :
    ofSettings ⟨some pattern, some flags⟩
      = ofPattern (Flags.adding {} flags.toList) pattern := by
  rw [ofSettings_some hpattern, readFlags_of_allowed h]
  rfl

/-- A pattern is understood or refused. -/
theorem ofPattern_eq (flags : Flags) (pattern : String) :
    ofPattern flags pattern = .error (.badPattern pattern) ∨
      ∃ m, ofPattern flags pattern = .ok m := by
  rw [ofPattern]
  split
  · exact .inr ⟨_, rfl⟩
  · exact .inl rfl

/-- A matcher has the expression that its pattern is read as. -/
theorem parse?_of_ofPattern {flags : Flags} {m : Matcher} (h : ofPattern flags pattern = .ok m) :
    parse? flags pattern = some m.regex := by
  rw [ofPattern] at h
  split at h
  · next hparse =>
      cases h
      exact hparse
  · exact nomatch h

/-- **A group of the letters of the flags, instead of the flags**, makes no difference to which
    names are accepted. -/
theorem accepts_inlineGroup (hpattern : pattern ≠ "") (h : ∀ c ∈ flags.toList, c ∈ flagLetters)
    {letters : List Char} (hnodup : letters.Nodup)
    (hletters : ∀ c, c ∈ letters ↔ c ∈ effectiveLetters ∧ c ∈ flags.toList) {m m' : Matcher}
    (hm : ofSettings ⟨some pattern, some flags⟩ = .ok m)
    (hm' : ofSettings ⟨some (inlineGroup letters ++ pattern), none⟩ = .ok m') (module : String) :
    m.accepts module = m'.accepts module := by
  have hsame : Flags.adding {} flags.toList = Flags.adding {} letters :=
    Flags.adding_congr (fun c hc => by rw [hletters c, and_iff_right hc]) {}
  have hprefixed : inlineGroup letters ++ pattern ≠ "" := by
    simp [hpattern]
  rw [ofSettings_of_allowed hpattern h, hsame] at hm
  have hnone : ofSettings ⟨some (inlineGroup letters ++ pattern), none⟩
      = ofPattern {} (inlineGroup letters ++ pattern) := by
    show ofSettings ⟨some (inlineGroup letters ++ pattern), some ""⟩ = _
    rw [ofSettings_of_allowed hprefixed (by simp)]
    rfl
  rw [hnone] at hm'
  have htakes := takes_inlineGroup (fun c hc => ((hletters c).mp hc).1) hnodup
    (parse?_of_ofPattern hm) (parse?_of_ofPattern hm')
  rw [Bool.eq_iff_iff, accepts, accepts, isMatch_iff, isMatch_iff]
  simp only [htakes]

end

/-- **Flags of settings are the letters that occur in them.** Without a pattern they do nothing.
    With one, the first letter that is none of a flag is refused, whatever the pattern is. Otherwise
    it only matters which of `i`, `m` and `s` there are: the pattern is refused or there is a
    matcher, and this accepts the same names as that of the pattern behind a group of these
    letters. -/
theorem flags_are_their_letters :
    (∀ flags : Option String, ofSettings ⟨none, flags⟩ = .ok default ∧
      ofSettings ⟨some "", flags⟩ = .ok default) ∧
    ∀ pattern flags : String, pattern ≠ "" →
      (∀ front c back, flags.toList = front ++ c :: back → (∀ d ∈ front, d ∈ flagLetters) →
        c ∉ flagLetters → ofSettings ⟨some pattern, some flags⟩ = .error (.badFlag c)) ∧
      ((∀ c ∈ flags.toList, c ∈ flagLetters) →
        (∀ flags' : String, (∀ c ∈ flags'.toList, c ∈ flagLetters) →
          (∀ c ∈ effectiveLetters, c ∈ flags.toList ↔ c ∈ flags'.toList) →
          ofSettings ⟨some pattern, some flags⟩ = ofSettings ⟨some pattern, some flags'⟩) ∧
        (ofSettings ⟨some pattern, some flags⟩ = .error (.badPattern pattern) ∨
          ∃ m, ofSettings ⟨some pattern, some flags⟩ = .ok m) ∧
        ∀ letters : List Char, letters.Nodup →
          (∀ c, c ∈ letters ↔ c ∈ effectiveLetters ∧ c ∈ flags.toList) →
          ∀ m m', ofSettings ⟨some pattern, some flags⟩ = .ok m →
            ofSettings ⟨some (inlineGroup letters ++ pattern), none⟩ = .ok m' →
            ∀ module, m.accepts module = m'.accepts module) := by
  refine ⟨fun flags => ⟨rfl, rfl⟩, fun pattern flags hpattern => ⟨?_, fun h => ⟨?_, ?_, ?_⟩⟩⟩
  · intro front c back hflags hfront hc
    rw [ofSettings_some hpattern, hflags, readFlags_of_forbidden hfront hc]
    rfl
  · intro flags' h' hsame
    rw [ofSettings_of_allowed hpattern h, ofSettings_of_allowed hpattern h',
      Flags.adding_congr hsame]
  · rw [ofSettings_of_allowed hpattern h]
    exact ofPattern_eq _ pattern
  · intro letters hnodup hletters m m' hm hm' module
    exact accepts_inlineGroup hpattern h hnodup hletters hm hm' module

/-- Two lines and letters of both cases: the flags are those of the group `(?mi)`, and a letter that
    is none of a flag is named. -/
theorem lines_in_any_case_match_alike :
    "^a|b" ≠ "" ∧ (∀ c ∈ "gimm".toList, c ∈ flagLetters) ∧
    ∃ m m', ofSettings ⟨some "^a|b", some "gimm"⟩ = .ok m ∧
      ofSettings ⟨some (inlineGroup ['m', 'i'] ++ "^a|b"), none⟩ = .ok m' ∧
      (∀ module, m.accepts module = m'.accepts module) ∧
      ofSettings ⟨some "^a|b", some "im"⟩ = .ok m ∧
      ofSettings ⟨some "^a|b", some "gxi"⟩ = .error (.badFlag 'x') := by
  have hpattern : "^a|b" ≠ "" := by decide
  have hallowed : ∀ c ∈ "gimm".toList, c ∈ flagLetters := by
    simp [flagLetters, effectiveLetters]
  have hallowed' : ∀ c ∈ "im".toList, c ∈ flagLetters := by
    simp [flagLetters, effectiveLetters]
  have hsame : ∀ c ∈ effectiveLetters, c ∈ "gimm".toList ↔ c ∈ "im".toList := by
    simp [effectiveLetters]
  have hletters : ∀ c, c ∈ ['m', 'i'] ↔ c ∈ effectiveLetters ∧ c ∈ "gimm".toList := by
    intro c
    rw [List.mem_cons, List.mem_singleton, mem_effectiveLetters]
    constructor
    · rintro (rfl | rfl) <;> decide
    · rintro ⟨rfl | rfl | rfl, hmem⟩
      · exact .inr rfl
      · exact .inl rfl
      · exact absurd hmem (by decide)
  obtain ⟨-, hread⟩ := flags_are_their_letters.2 "^a|b" "gimm" hpattern
  obtain ⟨hcongr, -, halike⟩ := hread hallowed
  refine ⟨hpattern, hallowed, _, _, rfl, rfl, ?_, ?_, ?_⟩
  · exact halike ['m', 'i'] (by decide) hletters _ _ rfl rfl
  · exact (hcongr "im" hallowed' hsame).symm.trans rfl
  · exact (flags_are_their_letters.2 "^a|b" "gxi" hpattern).1 ['g'] 'x' ['i'] rfl
      (by simp [flagLetters]) (by decide)

end Matcher

end Inlay
