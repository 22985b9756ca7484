import Inlay.Definition
import Inlay.Proofs.Scanning

/-!
# Positions of a string are units

A string is taken apart by the positions of its UTF-16 units. A position holds **one unit**, read as
a text of one character, and a half of a surrogate pair that is taken alone reads as U+FFFD. The
text from a position on has the units from there on, unless the position lies **between the two
halves** of a pair: then its first unit is U+FFFD. So nothing is lost as long as no half is taken
alone.

* `charUnits_cases`: a character is one unit that is no half, or a pair.
* `ofUnits_units`, `units_injective`: the units of a text determine it.
* `exists_cut`: a position lies before a character or between the halves of one.
* `units_ofUnits_singleton`, `units_dropUnits`: the units of what is taken.
* `units_rejoined`: the units of all that is taken, put together again.
* `string_positions_are_units`: one position, the rest, and both together.
-/

namespace Inlay.Text

/-! ## Characters and their units -/

/-- One half of a surrogate pair. -/
def isHalf (u : UInt16) : Bool := isLeading u || isTrailing u

/-- A second half is no first half. -/
theorem isLeading_of_isTrailing {u : UInt16} (h : isTrailing u = true) : isLeading u = false := by
  simp only [isTrailing, isLeading, UInt16.le_iff_toNat_le, ← Bool.decide_and, decide_eq_true_eq,
    decide_eq_false_iff_not] at h ⊢
  have hlower : (0xDC00 : UInt16).toNat = 0xDC00 := rfl
  have hupper : (0xDBFF : UInt16).toNat = 0xDBFF := rfl
  omega

/-- **The units of a character**: one that is no half, or the two halves of a pair. -/
theorem charUnits_cases (c : Char) :
    (∃ u, charUnits c = [u] ∧ isHalf u = false ∧ charOfUnit u = c) ∨
      ∃ lead trail, charUnits c = [lead, trail] ∧ isLeading lead = true ∧
        isTrailing trail = true ∧ charOfPair lead trail = c := by
  have hvalid : c.toNat < 0xD800 ∨ 0xDFFF < c.toNat := c.valid.imp_right And.left
  rw [charUnits]
  by_cases hlow : c.toNat < 0x10000
  · rw [if_pos hlow]
    have hhalf : isHalf c.toNat.toUInt16 = false := by
      rw [isHalf, Json.isLeading_toUInt16 hlow, Json.isTrailing_toUInt16 hlow, ← Bool.decide_and,
        ← Bool.decide_and, ← Bool.decide_or, decide_eq_false_iff_not]
      omega
    refine Or.inl ⟨_, rfl, hhalf, ?_⟩
    rw [charOfUnit, if_neg (by rw [← isHalf, hhalf]; exact Bool.false_ne_true), Nat.toUInt16_eq,
      UInt16.toNat_ofNat_of_lt' hlow, Char.ofNat_toNat]
  · rw [if_neg hlow]
    -- twenty bits are left, ten for each half
    have hbound : c.toNat < 0x110000 := by
      rcases c.valid with h | h
      · exact Nat.lt_trans h (by decide)
      · exact h.2
    have hlead : 0xD800 + (c.toNat - 0x10000) / 0x400 < 0x10000 := by omega
    have htrail : 0xDC00 + (c.toNat - 0x10000) % 0x400 < 0x10000 := by omega
    refine Or.inr ⟨_, _, rfl, ?_, ?_, ?_⟩
    · rw [Json.isLeading_toUInt16 hlead, ← Bool.decide_and, decide_eq_true_eq]
      omega
    · rw [Json.isTrailing_toUInt16 htrail, ← Bool.decide_and, decide_eq_true_eq]
      omega
    · rw [charOfPair, Nat.toUInt16_eq, Nat.toUInt16_eq, UInt16.toNat_ofNat_of_lt' hlead,
        UInt16.toNat_ofNat_of_lt' htrail]
      have hcode : 0x10000 + (0xD800 + (c.toNat - 0x10000) / 0x400 - 0xD800) * 0x400
          + (0xDC00 + (c.toNat - 0x10000) % 0x400 - 0xDC00) = c.toNat := by omega
      rw [hcode, Char.ofNat_toNat]

/-! ## Reading units -/

/-- A unit that is no first half is read alone. -/
theorem charsOfUnits_cons {u : UInt16} (h : isLeading u = false) (us : List UInt16) :
    charsOfUnits (u :: us) = charOfUnit u :: charsOfUnits us := by
  cases us with
  | nil => rfl
  | cons v rest =>
      rw [charsOfUnits, h]
      rfl

/-- The units of a character are read as the character. -/
theorem charsOfUnits_charUnits (c : Char) (us : List UInt16) :
    charsOfUnits (charUnits c ++ us) = c :: charsOfUnits us := by
  obtain ⟨u, hunits, hhalf, hchar⟩ | ⟨lead, trail, hunits, hlead, htrail, hchar⟩ :=
    charUnits_cases c
  · rw [hunits, List.singleton_append,
      charsOfUnits_cons (Bool.or_eq_false_iff.mp hhalf).1, hchar]
  · rw [hunits]
    show charsOfUnits (lead :: trail :: us) = _
    rw [charsOfUnits, hlead, htrail, hchar]
    rfl

/-- Units of characters are read as these characters. -/
theorem charsOfUnits_flatMap (cs : List Char) : charsOfUnits (cs.flatMap charUnits) = cs := by
  induction cs with
  | nil => rfl
  | cons c rest ih => rw [List.flatMap_cons, charsOfUnits_charUnits, ih]

/-- **The units of a text are read as the text.** -/
theorem ofUnits_units (s : String) : ofUnits (units s) = s := by
  rw [ofUnits, units, charsOfUnits_flatMap, String.ofList_toList]

/-- The units of a text determine it. -/
theorem units_injective {s t : String} (h : units s = units t) : s = t := by
  rw [← ofUnits_units s, ← ofUnits_units t, h]

theorem units_append (s t : String) : units (s ++ t) = units s ++ units t := by
  rw [units, String.toList_append, List.flatMap_append]
  rfl

theorem units_ofList (cs : List Char) : units (String.ofList cs) = cs.flatMap charUnits := by
  rw [units, String.toList_ofList]

theorem units_join (texts : List String) : units (String.join texts) = texts.flatMap units := by
  rw [units, String.toList_join, List.flatMap_assoc]
  rfl

/-- A unit as it is when it is taken alone. -/
def alone (u : UInt16) : UInt16 := if isHalf u then 0xFFFD else u

/-- A unit that is a half is another one when it is taken alone. -/
theorem alone_eq_iff {u : UInt16} : alone u = u ↔ isHalf u = false := by
  rw [alone]
  cases h : isHalf u with
  | false => exact iff_of_true rfl rfl
  | true =>
      refine iff_of_false ?_ Bool.true_eq_false.mp
      intro heq
      rw [if_pos rfl] at heq
      rw [← heq] at h
      exact absurd h (by decide)

/-- Units that are all the same alone have no half among them. -/
theorem map_alone_eq_iff {us : List UInt16} :
    us.map alone = us ↔ ∀ u ∈ us, isHalf u = false := by
  induction us with
  | nil => exact iff_of_true rfl (fun _ h => nomatch h)
  | cons u rest ih => rw [List.map_cons, List.cons.injEq, alone_eq_iff, ih, List.forall_mem_cons]

/-- The character of a unit that is taken alone has one unit. -/
theorem charUnits_charOfUnit (u : UInt16) : charUnits (charOfUnit u) = [alone u] := by
  rw [charOfUnit, alone, isHalf]
  by_cases hhalf : (isLeading u || isTrailing u) = true
  · rw [if_pos hhalf, if_pos hhalf]
    decide
  · rw [if_neg hhalf, if_neg hhalf]
    have hlt : u.toNat < 0x10000 := u.toNat_lt
    -- what is no half is the code of a character
    have hvalid : u.toNat < 0xD800 ∨ 0xDFFF < u.toNat := by
      rw [← UInt16.ofNat_toNat (x := u), ← Nat.toUInt16_eq, Json.isLeading_toUInt16 hlt,
        Json.isTrailing_toUInt16 hlt, ← Bool.decide_and, ← Bool.decide_and, ← Bool.decide_or,
        decide_eq_true_eq] at hhalf
      omega
    have hcode : (Char.ofNat u.toNat).toNat = u.toNat := by
      have hchar : u.toNat.isValidChar := hvalid.imp_right (fun h => ⟨h, by omega⟩)
      rw [Char.ofNat, dif_pos hchar]
      rfl
    rw [charUnits, hcode, if_pos hlt, Nat.toUInt16_eq, UInt16.ofNat_toNat]

/-- **The units of one unit that is taken alone.** -/
theorem units_ofUnits_singleton (u : UInt16) : units (ofUnits [u]) = [alone u] := by
  show units (String.ofList [charOfUnit u]) = _
  rw [units_ofList, List.flatMap_singleton, charUnits_charOfUnit]

/-! ## Cuts -/

/-- **A position between the two halves of a pair.** -/
def SplitsPair (us : List UInt16) (k : Nat) : Prop :=
  ∃ before lead trail behind, us = before ++ lead :: trail :: behind ∧ k = before.length + 1 ∧
    isLeading lead = true ∧ isTrailing trail = true

/-- **A position lies before a character, or between the two halves of one.** Behind the end it lies
    before nothing. -/
theorem exists_cut (cs : List Char) (k : Nat) :
    (∃ behind : List Char, (cs.flatMap charUnits).drop k = behind.flatMap charUnits) ∨
      ∃ (before : List UInt16) (lead trail : UInt16) (behind : List Char),
        cs.flatMap charUnits = before ++ lead :: trail :: behind.flatMap charUnits ∧
          k = before.length + 1 ∧ isLeading lead = true ∧ isTrailing trail = true := by
  induction cs generalizing k with
  | nil => exact Or.inl ⟨[], List.drop_nil⟩
  | cons c rest ih =>
      cases k with
      | zero => exact Or.inl ⟨c :: rest, rfl⟩
      | succ k =>
          obtain ⟨u, hunits, -, -⟩ | ⟨lead, trail, hunits, hlead, htrail, -⟩ := charUnits_cases c
          · rw [List.flatMap_cons, hunits, List.singleton_append, List.drop_succ_cons]
            obtain ⟨behind, hdrop⟩ | ⟨before, lead, trail, behind, hrest, hk, hpair⟩ := ih k
            · exact Or.inl ⟨behind, hdrop⟩
            · refine Or.inr ⟨u :: before, lead, trail, behind, ?_, ?_, hpair⟩
              · rw [hrest, List.cons_append]
              · rw [hk, List.length_cons]
          · rw [List.flatMap_cons, hunits]
            cases k with
            | zero => exact Or.inr ⟨[], lead, trail, rest, rfl, rfl, hlead, htrail⟩
            | succ k =>
                obtain ⟨behind, hdrop⟩ | ⟨before, lead', trail', behind, hrest, hk, hpair⟩ := ih k
                · exact Or.inl ⟨behind, hdrop⟩
                · refine Or.inr ⟨lead :: trail :: before, lead', trail', behind, ?_, ?_, hpair⟩
                  · rw [hrest]
                    rfl
                  · rw [hk, List.length_cons, List.length_cons]

/-- The units of characters do not start with a second half. -/
theorem isTrailing_head (cs : List Char) {u : UInt16} {us : List UInt16}
    (h : cs.flatMap charUnits = u :: us) : isTrailing u = false := by
  cases cs with
  | nil => cases h
  | cons c rest =>
      rw [List.flatMap_cons] at h
      obtain ⟨v, hunits, hhalf, -⟩ | ⟨lead, trail, hunits, hlead, -, -⟩ := charUnits_cases c
      · rw [hunits] at h
        cases h
        exact (Bool.or_eq_false_iff.mp hhalf).2
      · rw [hunits] at h
        cases h
        refine Bool.eq_false_iff.mpr (fun htrailing => ?_)
        rw [isLeading_of_isTrailing htrailing] at hlead
        cases hlead

/-- **The units of the text from a position on.** -/
theorem units_dropUnits (s : String) (k : Nat) :
    (SplitsPair (units s) k ∧ units (dropUnits s k) = 0xFFFD :: (units s).drop (k + 1)) ∨
      (¬ SplitsPair (units s) k ∧ units (dropUnits s k) = (units s).drop k) := by
  obtain ⟨behind, hdrop⟩ | ⟨before, lead, trail, behind, hunits, hk, hlead, htrail⟩ :=
    exists_cut s.toList k
  · refine Or.inr ⟨?_, ?_⟩
    · rintro ⟨before, lead, trail, rest, hunits, rfl, -, htrail⟩
      -- the units behind the cut would start with a second half
      rw [units] at hunits
      rw [hunits, List.drop_append, List.drop_of_length_le (by omega),
        Nat.add_sub_cancel_left] at hdrop
      rw [isTrailing_head behind hdrop.symm] at htrail
      cases htrail
    · rw [dropUnits, show (units s).drop k = behind.flatMap charUnits from hdrop, ofUnits,
        charsOfUnits_flatMap, units_ofList]
  · refine Or.inl ⟨⟨before, lead, trail, _, hunits, hk, hlead, htrail⟩, ?_⟩
    have hdrop : (units s).drop k = trail :: behind.flatMap charUnits := by
      rw [units, hunits, hk, List.drop_append, List.drop_of_length_le (by omega),
        Nat.add_sub_cancel_left]
      rfl
    have halone : alone trail = 0xFFFD := by
      rw [alone, isHalf, htrail, Bool.or_true, if_pos rfl]
    rw [dropUnits, hdrop, ofUnits, charsOfUnits_cons (isLeading_of_isTrailing htrail),
      charsOfUnits_flatMap, units_ofList, List.flatMap_cons, charUnits_charOfUnit, halone,
      ← List.drop_drop, hdrop]
    rfl

end Inlay.Text

namespace Inlay

open Json Text

/-! ## Taking strings apart -/

/-- The text at a position of a value, empty if there is none. -/
def textAt (v : Value) (i : Nat) : String :=
  match elementAt? v i with
  | some (.string t) => t
  | _ => ""

/-- The text from a position of a value on. -/
def textFrom (v : Value) (k : Nat) : String :=
  match elementsFrom v k with
  | .string t => t
  | _ => ""

/-- **The positions before `k` and the rest from there on**, put together again. -/
def rejoined (v : Value) (k : Nat) : String :=
  String.join ((List.range k).map (textAt v)) ++ textFrom v k

/-- The text at a position has the unit there. -/
theorem units_textAt (s : String) (i : Nat) :
    units (textAt (.string s) i) = ((units s)[i]?.map alone).toList := by
  rw [textAt, elementAt?, unitAt?]
  cases (units s)[i]? with
  | none => rfl
  | some u => exact units_ofUnits_singleton u

/-- **The units of all that is taken**: those before the cut as they are alone, and those of the
    rest. -/
theorem units_rejoined (s : String) (k : Nat) :
    units (rejoined (.string s) k) = ((units s).take k).map alone ++ units (dropUnits s k) := by
  have hpositions : ((List.range k).map (textAt (.string s))).flatMap units
      = ((units s).take k).map alone := by
    induction k with
    | zero => rfl
    | succ k ih =>
        rw [List.range_succ, List.map_append, List.flatMap_append, ih, List.take_add_one,
          List.map_append, List.map_singleton, List.flatMap_singleton, units_textAt,
          Option.toList_map]
  rw [rejoined, units_append, units_join, hpositions]
  rfl

/-- Where no half is before the cut, the cut splits no pair. -/
theorem not_splitsPair_of_take {us : List UInt16} {k : Nat}
    (h : ∀ u ∈ us.take k, isHalf u = false) : ¬ SplitsPair us k := by
  rintro ⟨before, lead, trail, behind, rfl, rfl, hlead, -⟩
  have hmem : lead ∈ (before ++ lead :: trail :: behind).take (before.length + 1) := by
    rw [List.take_append, List.take_of_length_le (by omega), Nat.add_sub_cancel_left]
    exact List.mem_append_right _ List.mem_cons_self
  have hhalf := h lead hmem
  rw [isHalf, hlead] at hhalf
  cases hhalf

/-- **Nothing is lost if no half is taken alone**, and only then. -/
theorem rejoined_eq_iff (s : String) (k : Nat) :
    rejoined (.string s) k = s ↔ ∀ u ∈ (units s).take k, isHalf u = false := by
  rw [← map_alone_eq_iff]
  constructor
  · intro h
    -- as many units as there are before the cut are the same on both sides
    have hunits := congrArg (fun t => (units t).take ((units s).take k).length) h
    simp only [units_rejoined] at hunits
    rw [List.take_left' (List.length_map alone)] at hunits
    rw [hunits, List.length_take, ← List.take_take, List.take_length]
  · intro h
    refine units_injective ?_
    obtain ⟨hsplits, -⟩ | ⟨-, hrest⟩ := units_dropUnits s k
    · exact absurd hsplits (not_splitsPair_of_take (map_alone_eq_iff.mp h))
    · rw [units_rejoined, h, hrest, List.take_append_drop]

/-- **The positions of a string are its units.** There is nothing at a position exactly from the end
    on. Before it there is a text of one character, with the unit there, or U+FFFD in place of a
    half of a pair. From a position on there is the text of the units from there on, and with U+FFFD
    as its first unit exactly if the position is between the two halves of a pair. Put together
    again, the positions before a cut and the rest are the string if and only if there is no half
    among the units before the cut. -/
theorem string_positions_are_units (s : String) :
    (∀ i, elementAt? (.string s) i = none ↔ (units s).length ≤ i) ∧
    (∀ i u, (units s)[i]? = some u →
      (isHalf u = true → elementAt? (.string s) i = some (.string "\uFFFD")) ∧
      (isHalf u = false →
        ∃ c, elementAt? (.string s) i = some (.string (.ofList [c])) ∧ charUnits c = [u])) ∧
    (∀ k, ∃ t, elementsFrom (.string s) k = .string t ∧
      (SplitsPair (units s) k → units t = 0xFFFD :: (units s).drop (k + 1)) ∧
      (¬ SplitsPair (units s) k → units t = (units s).drop k) ∧
      ((units s).length ≤ k → t = "")) ∧
    (∀ k, rejoined (.string s) k = s ↔ ∀ u ∈ (units s).take k, isHalf u = false) := by
  refine ⟨?_, ?_, ?_, rejoined_eq_iff s⟩
  · intro i
    rw [elementAt?, unitAt?, Option.map_eq_none_iff, Option.map_eq_none_iff,
      List.getElem?_eq_none_iff]
  · intro i u hu
    have helement : elementAt? (.string s) i = some (.string (.ofList [charOfUnit u])) := by
      rw [elementAt?, unitAt?, hu]
      rfl
    rw [helement]
    refine ⟨?_, ?_⟩
    · intro hhalf
      rw [charOfUnit, ← isHalf, if_pos hhalf]
      rfl
    · intro hhalf
      refine ⟨charOfUnit u, rfl, ?_⟩
      rw [charUnits_charOfUnit, alone_eq_iff.mpr hhalf]
  · intro k
    refine ⟨dropUnits s k, rfl, ?_, ?_, ?_⟩
    · intro hsplits
      obtain ⟨-, hunits⟩ | ⟨hnot, -⟩ := units_dropUnits s k
      · exact hunits
      · exact absurd hsplits hnot
    · intro hnot
      obtain ⟨hsplits, -⟩ | ⟨-, hunits⟩ := units_dropUnits s k
      · exact absurd hsplits hnot
      · exact hunits
    · intro hend
      rw [dropUnits, List.drop_of_length_le hend]
      rfl

/-- The string `a😀b` has four units: taken apart behind the first one nothing is lost, and taken
    apart behind the second one both halves of the pair are. -/
example :
    rejoined (.string "a😀b") 1 = "a😀b" ∧ rejoined (.string "a😀b") 2 = "a\uFFFD\uFFFDb" := by
  decide

end Inlay
