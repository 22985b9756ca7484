import Inlay.Pattern.Regex
import Mathlib.Logic.Function.Iterate

/-!
# What a regular expression matches

Matching works on sets of positions, all alternatives at once. What an expression **takes** is told
here on the text itself: `r.Takes front word back` says that `r` takes `word` where it stands
between `front` and `back`. The two agree on every expression and every text, repetitions included:
a round that takes nothing can be left out, so no more rounds are needed than there are characters.

* `Regex.Takes`: what an expression takes, with `Then` and `Rounds` for what follows one another.
* `Tracks`: a function on sets of positions goes from where words start to where they end, with
  `tracks_then`, `tracks_or`, `tracks_times`, `tracks_upTo`, `tracks_char` and `tracks_look`.
* `Rounds.short`: rounds that take nothing can be left out.
* `isMatch_iff`: an expression matches a text if it takes some part of it.
-/

namespace Inlay.Pattern

/-! ## Words that are taken -/

/-- A condition on a word and what stands before and behind it: `front`, `word`, `back`. -/
abbrev Taking := List Char → List Char → List Char → Prop

/-- **One after the other**: the first takes a front part of the word, the second what is left. -/
def Then (first second : Taking) : Taking := fun front word back =>
  ∃ u v, word = u ++ v ∧ first front u (v ++ back) ∧ second (front ++ u) v back

/-- **Exactly `n` rounds.** -/
def Rounds (takes : Taking) : Nat → Taking
  | 0 => fun _ word _ => word = []
  | n + 1 => Then takes (Rounds takes n)

/-- **What an atom takes**: one character of its set, or nothing where its look holds. -/
def Atom.Takes : Atom → Taking
  | char set => fun _ word _ => ∃ c, word = [c] ∧ set.contains c = true
  | look l => fun front word back => word = [] ∧ l.holds front.getLast? back.head? = true

/-- **What an expression takes.** A repetition has a number of rounds within its bounds; where the
    bounds exclude each other, the lower one counts. -/
def Regex.Takes : Regex Atom → Taking
  | empty => fun _ word _ => word = []
  | atom a => a.Takes
  | seq r s => Then r.Takes s.Takes
  | alt r s => fun front word back => r.Takes front word back ∨ s.Takes front word back
  | rep r lo hi => fun front word back =>
      ∃ n, lo ≤ n ∧ (∀ most, hi = some most → n ≤ max lo most) ∧ Rounds r.Takes n front word back

section

variable {takes other : Taking} {front word back : List Char}

theorem Then.mono_right {first second second' : Taking}
    (himp : ∀ front word back, second front word back → second' front word back)
    (h : Then first second front word back) : Then first second' front word back := by
  obtain ⟨u, v, rfl, hu, hv⟩ := h
  exact ⟨u, v, rfl, hu, himp _ _ _ hv⟩

theorem then_assoc {first second third : Taking} :
    Then (Then first second) third front word back ↔
      Then first (Then second third) front word back := by
  constructor
  · rintro ⟨w, x, rfl, ⟨u, v, rfl, hu, hv⟩, hx⟩
    refine ⟨u, v ++ x, by simp, ?_, v, x, rfl, hv, ?_⟩
    · simpa using hu
    · simpa using hx
  · rintro ⟨u, w, rfl, hu, v, x, rfl, hv, hx⟩
    refine ⟨u ++ v, x, by simp, ⟨u, v, rfl, ?_, hv⟩, ?_⟩
    · simpa using hu
    · simpa using hx

/-- Taking nothing first changes nothing. -/
theorem then_nil_left :
    Then (fun _ word _ => word = []) takes front word back ↔ takes front word back := by
  constructor
  · rintro ⟨u, v, rfl, rfl, hv⟩
    simpa using hv
  · intro h
    exact ⟨[], word, rfl, rfl, by simpa using h⟩

/-- Rounds after rounds are as many rounds together. -/
theorem rounds_add (m n : Nat) :
    Rounds takes (m + n) front word back ↔
      Then (Rounds takes m) (Rounds takes n) front word back := by
  induction m generalizing front word back with
  | zero => rw [Nat.zero_add, Rounds, then_nil_left]
  | succ m ih =>
      rw [Nat.succ_add, Rounds, Rounds, then_assoc]
      constructor
      · exact Then.mono_right fun _ _ _ => ih.mp
      · exact Then.mono_right fun _ _ _ => ih.mpr

/-- **Rounds that may be left out**: to take or not in each of `n` rounds is to take in at most `n`.
    -/
theorem rounds_optional_iff (n : Nat) :
    Rounds (fun front word back => word = [] ∨ takes front word back) n front word back ↔
      ∃ k ≤ n, Rounds takes k front word back := by
  induction n generalizing front word back with
  | zero =>
      constructor
      · intro h
        exact ⟨0, Nat.le_refl 0, h⟩
      · rintro ⟨k, hk, h⟩
        rwa [Nat.le_zero.mp hk] at h
  | succ n ih =>
      constructor
      · rintro ⟨u, v, rfl, hu, hv⟩
        obtain ⟨k, hk, hv⟩ := ih.mp hv
        rcases hu with rfl | hu
        · exact ⟨k, Nat.le_succ_of_le hk, by simpa using hv⟩
        · exact ⟨k + 1, Nat.succ_le_succ hk, u, v, rfl, hu, hv⟩
      · rintro ⟨k, hk, h⟩
        cases k with
        | zero =>
            refine ⟨[], word, rfl, Or.inl rfl, ih.mpr ⟨0, Nat.zero_le n, h⟩⟩
        | succ k =>
            obtain ⟨u, v, rfl, hu, hv⟩ := h
            exact ⟨u, v, rfl, Or.inr hu, ih.mpr ⟨k, Nat.le_of_succ_le_succ hk, hv⟩⟩

/-- A fixed number of rounds, and some more. -/
theorem then_rounds_iff (lo extra : Nat) :
    Then (Rounds takes lo) (fun front word back => ∃ k ≤ extra, Rounds takes k front word back)
        front word back ↔
      ∃ n, lo ≤ n ∧ n ≤ lo + extra ∧ Rounds takes n front word back := by
  constructor
  · rintro ⟨u, v, rfl, hu, k, hk, hv⟩
    exact ⟨lo + k, Nat.le_add_right lo k, Nat.add_le_add_left hk lo,
      (rounds_add lo k).mpr ⟨u, v, rfl, hu, hv⟩⟩
  · rintro ⟨n, hlo, hn, h⟩
    obtain ⟨k, rfl⟩ := Nat.exists_eq_add_of_le hlo
    exact ((rounds_add lo k).mp h).mono_right
      fun _ _ _ hv => ⟨k, Nat.le_of_add_le_add_left hn, hv⟩

/-- **Rounds that take nothing can be left out**, so there need be no more than characters. -/
theorem Rounds.short {n : Nat} (h : Rounds takes n front word back) :
    ∃ m ≤ word.length, Rounds takes m front word back := by
  induction n generalizing front word back with
  | zero => exact ⟨0, Nat.zero_le _, h⟩
  | succ n ih =>
      obtain ⟨u, v, rfl, hu, hv⟩ := h
      obtain ⟨m, hm, hv⟩ := ih hv
      cases u with
      | nil => exact ⟨m, hm, by simpa using hv⟩
      | cons c u =>
          refine ⟨m + 1, ?_, c :: u, v, rfl, hu, hv⟩
          rw [List.length_append, List.length_cons]
          omega

/-- What may be left out takes nothing, or what it takes otherwise. -/
theorem takes_optional {r : Regex Atom} :
    (Regex.rep r 0 (some 1)).Takes front word back ↔ word = [] ∨ r.Takes front word back := by
  constructor
  · rintro ⟨n, -, hn, hrounds⟩
    rcases Nat.le_one_iff_eq_zero_or_eq_one.mp (hn 1 rfl) with rfl | rfl
    · exact Or.inl hrounds
    · obtain ⟨u, v, rfl, hu, rfl⟩ := hrounds
      exact Or.inr (by simpa using hu)
  · rintro (rfl | hr)
    · exact ⟨0, Nat.le_refl 0, fun _ _ => Nat.zero_le _, rfl⟩
    · refine ⟨1, Nat.zero_le 1, ?_, word, [], by simp, by simpa using hr, rfl⟩
      rintro most ⟨⟩
      exact Nat.le_refl 1

end

/-! ## Sets of positions -/

/-- The positions of a set lie in the text, its end included. -/
def Within (text : List Char) (set : Nat) : Prop := ∀ i, set.testBit i = true → i ≤ text.length

/-- **From starts to ends**: of a set of positions in the text, `f` makes the set of the positions
    where the words end that are taken from there. -/
def Tracks (text : List Char) (f : Nat → Nat) (takes : Taking) : Prop :=
  ∀ set, Within text set → ∀ j, (f set).testBit j = true ↔
    ∃ front word back, text = front ++ word ++ back ∧ set.testBit front.length = true ∧
      j = (front ++ word).length ∧ takes front word back

section

variable {text : List Char} {f g : Nat → Nat} {takes other : Taking}

/-- What is reached lies in the text. -/
theorem Tracks.within (h : Tracks text f takes) {set : Nat} (hset : Within text set) :
    Within text (f set) := by
  intro j hj
  obtain ⟨front, word, back, rfl, -, rfl, -⟩ := (h set hset j).mp hj
  exact (List.sublist_append_left _ back).length_le

theorem Tracks.congr (h : Tracks text f takes)
    (hiff : ∀ front word back, text = front ++ word ++ back →
      (takes front word back ↔ other front word back)) : Tracks text f other := by
  intro set hset j
  rw [h set hset j]
  constructor
  · rintro ⟨front, word, back, htext, hstart, hend, htakes⟩
    exact ⟨front, word, back, htext, hstart, hend, (hiff front word back htext).mp htakes⟩
  · rintro ⟨front, word, back, htext, hstart, hend, htakes⟩
    exact ⟨front, word, back, htext, hstart, hend, (hiff front word back htext).mpr htakes⟩

/-- Nothing is taken where all positions stay. -/
theorem tracks_self : Tracks text (fun set => set) (fun _ word _ => word = []) := by
  intro set hset j
  constructor
  · intro hj
    refine ⟨text.take j, [], text.drop j, by simp, ?_, ?_, rfl⟩
    · rwa [List.length_take_of_le (hset j hj)]
    · rw [List.append_nil, List.length_take_of_le (hset j hj)]
  · rintro ⟨front, word, back, -, hstart, rfl, rfl⟩
    rwa [List.append_nil]

/-- **One after the other**: the ends of the first are the starts of the second. -/
theorem tracks_then (hf : Tracks text f takes) (hg : Tracks text g other) :
    Tracks text (fun set => g (f set)) (Then takes other) := by
  intro set hset j
  rw [hg (f set) (hf.within hset) j]
  constructor
  · rintro ⟨middle, v, back, htext, hmiddle, rfl, hv⟩
    obtain ⟨front, u, rest, htext', hstart, hlength, hu⟩ := (hf set hset _).mp hmiddle
    -- both cut the text at the same position
    obtain ⟨rfl, rfl⟩ : middle = front ++ u ∧ v ++ back = rest := by
      refine List.append_inj ?_ hlength
      rw [← List.append_assoc, ← htext, htext']
    exact ⟨front, u ++ v, back, by simp [htext'], hstart, by simp, u, v, rfl, hu, hv⟩
  · rintro ⟨front, word, back, htext, hstart, rfl, u, v, rfl, hu, hv⟩
    refine ⟨front ++ u, v, back, by simp [htext], ?_, by simp, hv⟩
    exact (hf set hset _).mpr ⟨front, u, v ++ back, by simp [htext], hstart, rfl, hu⟩

theorem tracks_or (hf : Tracks text f takes) (hg : Tracks text g other) :
    Tracks text (fun set => f set ||| g set)
      (fun front word back => takes front word back ∨ other front word back) := by
  intro set hset j
  rw [Nat.testBit_or, Bool.or_eq_true, hf set hset j, hg set hset j]
  constructor
  · rintro (⟨front, word, back, htext, hstart, hend, htakes⟩ |
      ⟨front, word, back, htext, hstart, hend, htakes⟩)
    · exact ⟨front, word, back, htext, hstart, hend, Or.inl htakes⟩
    · exact ⟨front, word, back, htext, hstart, hend, Or.inr htakes⟩
  · rintro ⟨front, word, back, htext, hstart, hend, htakes | htakes⟩
    · exact Or.inl ⟨front, word, back, htext, hstart, hend, htakes⟩
    · exact Or.inr ⟨front, word, back, htext, hstart, hend, htakes⟩

/-! ## Repetitions -/

/-- Stopping when nothing changes is no different from going on. -/
theorem times_eq_iterate (f : Nat → Nat) (n set : Nat) : times f n set = f^[n] set := by
  induction n generalizing set with
  | zero => rfl
  | succ n ih =>
      rw [times]
      split
      case isTrue hfixed => exact (Function.iterate_fixed hfixed (n + 1)).symm
      case isFalse => rw [ih, Function.iterate_succ_apply]

theorem tracks_times (h : Tracks text f takes) (n : Nat) :
    Tracks text (times f n) (Rounds takes n) := by
  induction n with
  | zero => exact tracks_self
  | succ n ih =>
      have hstep : times f (n + 1) = fun set => times f n (f set) := by
        funext set
        rw [times_eq_iterate, times_eq_iterate, Function.iterate_succ_apply]
      rw [hstep]
      exact tracks_then h ih

theorem tracks_upTo (h : Tracks text f takes) (n : Nat) :
    Tracks text (upTo f n) (fun front word back => ∃ k ≤ n, Rounds takes k front word back) :=
  (tracks_times (tracks_or tracks_self h) n).congr fun _ _ _ _ => rounds_optional_iff n

end

/-! ## Atoms -/

theorem testBit_ofBits (bits : List Bool) (i : Nat) :
    (ofBits bits).testBit i = bits[i]?.getD false := by
  induction bits generalizing i with
  | nil => simp [ofBits]
  | cons bit bits ih =>
      have hcons : ofBits (bit :: bits) = 2 * ofBits bits + bit.toNat := rfl
      rw [hcons]
      cases i with
      | zero => cases bit <;> simp [Nat.testBit_zero]
      | succ i =>
          have hhalf : (2 * ofBits bits + bit.toNat) / 2 = ofBits bits := by
            have hbit := bit.toNat_le
            omega
          rw [Nat.testBit_succ, hhalf, ih, List.getElem?_cons_succ]

/-- **What stands around a position**: the last character before it and the first one behind it. -/
theorem getElem?_neighbours (before : Option Char) (front back : List Char) :
    (neighbours before (front ++ back))[front.length]?
      = some (front.getLast?.or before, back.head?) := by
  induction front generalizing before with
  | nil => cases back <;> rfl
  | cons c front ih =>
      rw [List.cons_append, neighbours, List.length_cons, List.getElem?_cons_succ, ih,
        List.getLast?_cons]
      cases front.getLast? <;> rfl

/-- A position before a character cuts the text around it. -/
theorem exists_cut_of_getElem? {text : List Char} {i : Nat} {c : Char} (h : text[i]? = some c) :
    ∃ front back, text = front ++ [c] ++ back ∧ front.length = i := by
  obtain ⟨hi, rfl⟩ := List.getElem?_eq_some_iff.mp h
  refine ⟨text.take i, text.drop (i + 1), ?_, List.length_take_of_le (Nat.le_of_lt hi)⟩
  rw [List.append_assoc, List.singleton_append, List.getElem_cons_drop, List.take_append_drop]

/-- A set of characters goes one character on. -/
theorem tracks_char (text : List Char) (set : CharSet) (size : Nat) :
    Tracks text ((Regex.atom ((Atom.char set).marks text)).ends size) (Atom.char set).Takes := by
  intro starts _ j
  simp only [Atom.marks, Regex.ends, Nat.testBit_shiftLeft, Nat.testBit_and, testBit_ofBits,
    List.getElem?_map, Bool.and_eq_true, decide_eq_true_eq, Atom.Takes]
  constructor
  · rintro ⟨hj, hstart, hchar⟩
    cases htext : text[j - 1]? with
    | none =>
        rw [htext] at hchar
        cases hchar
    | some c =>
        rw [htext] at hchar
        obtain ⟨front, back, rfl, hfront⟩ := exists_cut_of_getElem? htext
        refine ⟨front, [c], back, rfl, by rwa [hfront], ?_, c, rfl, hchar⟩
        rw [List.length_append, hfront, List.length_singleton]
        omega
  · rintro ⟨front, word, back, rfl, hstart, rfl, c, rfl, hc⟩
    simp [hstart, hc]

/-- A look stays where it holds. -/
theorem tracks_look (text : List Char) (l : Look) (size : Nat) :
    Tracks text ((Regex.atom ((Atom.look l).marks text)).ends size) (Atom.look l).Takes := by
  have hmarks : (Atom.look l).marks text
      = .stay (ofBits ((neighbours none text).map fun p => l.holds p.1 p.2)) := rfl
  have hholds : ∀ front back : List Char, text = front ++ back →
      (((neighbours none text).map fun p => l.holds p.1 p.2)[front.length]?.getD false)
        = l.holds front.getLast? back.head? := by
    rintro front back rfl
    rw [List.getElem?_map, getElem?_neighbours, Option.or_none]
    rfl
  intro starts hstarts j
  simp only [hmarks, Regex.ends, Nat.testBit_and, testBit_ofBits, Bool.and_eq_true, Atom.Takes]
  constructor
  · rintro ⟨hstart, hlook⟩
    have hlength : (text.take j).length = j := List.length_take_of_le (hstarts j hstart)
    refine ⟨text.take j, [], text.drop j, by simp, by rwa [hlength], by simp [hlength], rfl, ?_⟩
    rwa [← hholds _ _ (List.take_append_drop j text).symm, hlength]
  · rintro ⟨front, word, back, htext, hstart, rfl, rfl, hlook⟩
    rw [List.append_nil] at htext ⊢
    exact ⟨hstart, by rwa [hholds front back htext]⟩

/-! ## Expressions -/

/-- As many rounds as the text has characters are as good as any number of rounds. -/
theorem rounds_within_iff {takes : Taking} {text front word back : List Char}
    (htext : text = front ++ word ++ back) (lo : Nat) :
    (∃ n, lo ≤ n ∧ n ≤ lo + (text.length + 1) ∧ Rounds takes n front word back) ↔
      ∃ n, lo ≤ n ∧ Rounds takes n front word back := by
  constructor
  · rintro ⟨n, hlo, -, h⟩
    exact ⟨n, hlo, h⟩
  · rintro ⟨n, hlo, h⟩
    obtain ⟨k, rfl⟩ := Nat.exists_eq_add_of_le hlo
    -- the rounds above the lower bound are those that can be left out
    obtain ⟨u, v, rfl, hu, hv⟩ := (rounds_add lo k).mp h
    obtain ⟨m, hm, hv⟩ := hv.short
    refine ⟨lo + m, Nat.le_add_right lo m, ?_, (rounds_add lo m).mpr ⟨u, v, rfl, hu, hv⟩⟩
    have hlength : v.length ≤ text.length := by
      rw [htext]
      simp only [List.length_append]
      omega
    omega

/-- **An expression goes from where it takes words to where they end.** -/
theorem tracks_ends (text : List Char) (r : Regex Atom) :
    Tracks text ((r.map (Atom.marks text)).ends text.length) r.Takes := by
  induction r with
  | empty => exact tracks_self
  | atom a =>
      cases a with
      | char set => exact tracks_char text set text.length
      | look l => exact tracks_look text l text.length
  | seq r s ihr ihs =>
      have hseq := tracks_then ihr ihs
      exact hseq
  | alt r s ihr ihs =>
      have halt := tracks_or ihr ihs
      exact halt
  | rep r lo hi ih =>
      cases hi with
      | some most =>
          have hrep := tracks_then (tracks_times ih lo) (tracks_upTo ih (most - lo))
          refine hrep.congr fun front word back _ => ?_
          rw [then_rounds_iff, Regex.Takes]
          have hbound : ∀ n, n ≤ lo + (most - lo) ↔ n ≤ max lo most := by
            intro n
            omega
          simp only [hbound, Option.some.injEq, forall_eq']
      | none =>
          have hrep := tracks_then (tracks_times ih lo) (tracks_upTo ih (text.length + 1))
          refine hrep.congr fun front word back htext => ?_
          rw [then_rounds_iff, rounds_within_iff htext, Regex.Takes]
          simp only [reduceCtorEq, false_implies, implies_true, true_and]

/-- The positions at which matching may start are all positions of the text. -/
theorem testBit_starts (size i : Nat) : (1 <<< (size + 1) - 1).testBit i = decide (i ≤ size) := by
  rw [Nat.one_shiftLeft, Nat.testBit_two_pow_sub_one, decide_eq_decide]
  exact Nat.lt_succ_iff

/-- **Matching is taking some part of the text.** -/
theorem isMatch_iff (r : Regex Atom) (text : List Char) :
    r.isMatch text = true ↔
      ∃ front word back, text = front ++ word ++ back ∧ r.Takes front word back := by
  have hstarts : Within text (1 <<< (text.length + 1) - 1) := by
    intro i hi
    rw [testBit_starts] at hi
    exact of_decide_eq_true hi
  have hends := tracks_ends text r _ hstarts
  rw [Regex.isMatch, bne_iff_ne]
  constructor
  · intro hne
    obtain ⟨j, hj⟩ := Nat.exists_testBit_of_ne_zero hne
    obtain ⟨front, word, back, htext, -, -, htakes⟩ := (hends j).mp hj
    exact ⟨front, word, back, htext, htakes⟩
  · rintro ⟨front, word, back, htext, htakes⟩ hzero
    have hend := (hends _).mpr ⟨front, word, back, htext, ?_, rfl, htakes⟩
    · rw [hzero, Nat.zero_testBit] at hend
      cases hend
    · rw [testBit_starts, htext]
      simp only [List.length_append, decide_eq_true_eq]
      omega

end Inlay.Pattern
