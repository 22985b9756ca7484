import Inlay.Json.Value

/-!
# The texts of a document

The grammar of JSON texts, as relations between a document and the texts that spell it. A
**document** is a value in which every numeral is as it is written, and an object has all its
members in the order of the text, also several with one key. Nothing here depends on how texts are
read.

* `SpelledChar`, `SpelledString`: characters as they are, behind a backslash, or as one or two
  hexadecimal units.
* `Numeral.IsWritten`: what can stand as a number.
* `Spelled`: whole values, with blanks wherever they may stand; `SpelledText`: a whole text.
* `Value.depth`: how many lists and objects stand around one another.
-/

namespace Inlay

/-- **A numeral as the grammar has it**: before the point a single zero, or digits that do not start
    with one; behind a point and behind the mark of an exponent at least one digit. -/
structure Numeral.IsWritten (n : Numeral) : Prop where
  whole : n.whole = [0] ∨ ∃ d rest, n.whole = d :: rest ∧ d ≠ 0
  fraction : ∀ ds ∈ n.fraction, ds ≠ []
  exponent : ∀ e ∈ n.exponent, e.digits ≠ []

namespace Json

/-! ## Blanks and strings -/

/-- White space. -/
def Blanks (s : List Char) : Prop := ∀ c ∈ s, c = ' ' ∨ c = '\t' ∨ c = '\n' ∨ c = '\r'

theorem blanks_nil : Blanks [] := fun _ h => nomatch h

/-- The hexadecimal digit `c` has the value `n`; its case does not matter. -/
def HexDigit (c : Char) (n : Nat) : Prop :=
  "0123456789abcdef".toList[n]? = some c ∨ "0123456789ABCDEF".toList[n]? = some c

/-- Four hexadecimal digits with the value `n`. -/
inductive HexUnit : Nat → List Char → Prop where
  | four {a b c d : Char} {i j k l : Nat} (ha : HexDigit a i) (hb : HexDigit b j)
      (hc : HexDigit c k) (hd : HexDigit d l) :
      HexUnit (i * 0x1000 + j * 0x100 + k * 0x10 + l) [a, b, c, d]

/-- The letters that stand for a character behind a backslash. -/
def shortEscapes : List (Char × Char) :=
  [('"', '"'), ('\\', '\\'), ('/', '/'), ('b', '\x08'), ('f', '\x0c'), ('n', '\n'), ('r', '\r'),
    ('t', '\t')]

/-- **The spellings of a character** inside a string. A character is never one half of a surrogate
    pair, so halves only occur in pairs. -/
inductive SpelledChar : Char → List Char → Prop where
  | plain {c : Char} (hprintable : 0x20 ≤ c.toNat) (hquote : c ≠ '"') (hbackslash : c ≠ '\\') :
      SpelledChar c [c]
  | short {letter c : Char} (h : (letter, c) ∈ shortEscapes) : SpelledChar c ['\\', letter]
  | unit {c : Char} {row : List Char} (h : HexUnit c.toNat row) :
      SpelledChar c ('\\' :: 'u' :: row)
  | pair {c : Char} {lead trail : Nat} {row row' : List Char}
      (hlead : HexUnit (0xD800 + lead) row) (htrail : HexUnit (0xDC00 + trail) row')
      (hlead' : lead < 0x400) (htrail' : trail < 0x400)
      (hc : c.toNat = 0x10000 + lead * 0x400 + trail) :
      SpelledChar c ('\\' :: 'u' :: row ++ '\\' :: 'u' :: row')

/-- **The spellings of a string**, without its quotes. -/
inductive SpelledString : List Char → List Char → Prop where
  | nil : SpelledString [] []
  | cons {c : Char} {cs s t : List Char} (h : SpelledChar c s) (hrest : SpelledString cs t) :
      SpelledString (c :: cs) (s ++ t)

/-- A character that needs no escape. -/
def isPlainChar (c : Char) : Bool := 0x20 ≤ c.toNat && c != '"' && c != '\\'

/-- Characters that need no escape spell themselves. -/
theorem spelledString_of_plain {cs : List Char} (h : cs.all isPlainChar = true) :
    SpelledString cs cs := by
  induction cs with
  | nil => exact .nil
  | cons c rest ih =>
      rw [List.all_cons, Bool.and_eq_true, isPlainChar, Bool.and_eq_true, Bool.and_eq_true,
        decide_eq_true_eq, bne_iff_ne, bne_iff_ne] at h
      obtain ⟨⟨⟨hprintable, hquote⟩, hbackslash⟩, hrest⟩ := h
      exact .cons (.plain hprintable hquote hbackslash) (ih hrest)

/-! ## Values -/

mutual

/-- **The spellings of a value.** -/
inductive Spelled : Value → List Char → Prop where
  | null : Spelled .null ['n', 'u', 'l', 'l']
  | true : Spelled (.bool true) ['t', 'r', 'u', 'e']
  | false : Spelled (.bool false) ['f', 'a', 'l', 's', 'e']
  | number {n : Numeral} (h : n.IsWritten) : Spelled (.number n) n.text.toList
  | string {s : String} {t : List Char} (h : SpelledString s.toList t) :
      Spelled (.string s) ('"' :: t ++ ['"'])
  | emptyArray {w : List Char} (h : Blanks w) : Spelled (.array []) ('[' :: w ++ [']'])
  | array {items : List Value} {t : List Char} (h : SpelledItems items t) :
      Spelled (.array items) ('[' :: t ++ [']'])
  | emptyObject {w : List Char} (h : Blanks w) : Spelled (.object []) ('\x7b' :: w ++ ['\x7d'])
  | object {members : List (String × Value)} {t : List Char} (h : SpelledMembers members t) :
      Spelled (.object members) ('\x7b' :: t ++ ['\x7d'])

/-- The spellings of the items of a list, of which there is at least one. -/
inductive SpelledItems : List Value → List Char → Prop where
  | one {v : Value} {w t w' : List Char} (hw : Blanks w) (h : Spelled v t) (hw' : Blanks w') :
      SpelledItems [v] (w ++ t ++ w')
  | more {v : Value} {items : List Value} {w t w' ts : List Char} (hw : Blanks w)
      (h : Spelled v t) (hw' : Blanks w') (hrest : SpelledItems items ts) :
      SpelledItems (v :: items) (w ++ t ++ w' ++ ',' :: ts)

/-- The spellings of a member: a key, a colon and a value. -/
inductive SpelledMember : String × Value → List Char → Prop where
  | member {key : String} {v : Value} {k w w' t : List Char}
      (hkey : SpelledString key.toList k) (hw : Blanks w) (hw' : Blanks w') (h : Spelled v t) :
      SpelledMember (key, v) ('"' :: k ++ '"' :: w ++ ':' :: w' ++ t)

/-- The spellings of the members of an object, of which there is at least one. -/
inductive SpelledMembers : List (String × Value) → List Char → Prop where
  | one {m : String × Value} {w t w' : List Char} (hw : Blanks w) (h : SpelledMember m t)
      (hw' : Blanks w') : SpelledMembers [m] (w ++ t ++ w')
  | more {m : String × Value} {members : List (String × Value)} {w t w' ts : List Char}
      (hw : Blanks w) (h : SpelledMember m t) (hw' : Blanks w')
      (hrest : SpelledMembers members ts) :
      SpelledMembers (m :: members) (w ++ t ++ w' ++ ',' :: ts)

end

/-- **The texts of a document**: one value between blanks. -/
inductive SpelledText : Value → String → Prop where
  | text {v : Value} {w t w' : List Char} (hw : Blanks w) (h : Spelled v t) (hw' : Blanks w') :
      SpelledText v (String.ofList (w ++ t ++ w'))

/-! ## Depth -/

mutual

/-- **How many lists and objects stand around one another.** -/
def Value.depth : Value → Nat
  | .array items => depthItems items + 1
  | .object members => depthMembers members + 1
  | _ => 0

def Value.depthItems : List Value → Nat
  | [] => 0
  | v :: rest => max v.depth (depthItems rest)

def Value.depthMembers : List (String × Value) → Nat
  | [] => 0
  | (_, v) :: rest => max v.depth (depthMembers rest)

end

end Json

end Inlay
