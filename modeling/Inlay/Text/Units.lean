/-!
# UTF-16 units of a text

A character is one 16-bit unit, or two (a **surrogate pair**) when its code point is above `FFFF`.
Positions inside a text count units, so a cut may fall between the two halves of a pair. Reading
units back as text is total: a half that has lost its partner reads as U+FFFD.

* `units` writes a text as units, `ofUnits` reads units as text.
* `unitAt?` and `dropUnits` pick one unit and the tail behind a position.
-/

namespace Inlay.Text

/-- The first half of a surrogate pair. -/
def isLeading (u : UInt16) : Bool := 0xD800 ≤ u && u ≤ 0xDBFF

/-- The second half of a surrogate pair. -/
def isTrailing (u : UInt16) : Bool := 0xDC00 ≤ u && u ≤ 0xDFFF

/-- The character that stands for a half without its partner. -/
def replacement : Char := '\uFFFD'

/-- **The units of one character**: one up to `FFFF`, a surrogate pair above. -/
def charUnits (c : Char) : List UInt16 :=
  if c.toNat < 0x10000 then [c.toNat.toUInt16]
  else
    let offset := c.toNat - 0x10000
    [(0xD800 + offset / 0x400).toUInt16, (0xDC00 + offset % 0x400).toUInt16]

/-- The units of a text, first to last. -/
def units (s : String) : List UInt16 := s.toList.flatMap charUnits

/-- The character of a unit that stands alone. -/
def charOfUnit (u : UInt16) : Char :=
  if isLeading u || isTrailing u then replacement else Char.ofNat u.toNat

/-- The character of a leading and a trailing half. -/
def charOfPair (lead trail : UInt16) : Char :=
  Char.ofNat (0x10000 + (lead.toNat - 0xD800) * 0x400 + (trail.toNat - 0xDC00))

/-- The characters of a list of units: a leading half takes the trailing half right behind it. -/
def charsOfUnits : List UInt16 → List Char
  | [] => []
  | [u] => [charOfUnit u]
  | u :: v :: rest =>
    if isLeading u && isTrailing v then charOfPair u v :: charsOfUnits rest
    else charOfUnit u :: charsOfUnits (v :: rest)

/-- **Units as text.** -/
def ofUnits (us : List UInt16) : String := String.ofList (charsOfUnits us)

/-- The unit at position `index`, as a text of one character. -/
def unitAt? (s : String) (index : Nat) : Option String :=
  (units s)[index]?.map fun u => ofUnits [u]

/-- The text from position `index` on; empty past the end. -/
def dropUnits (s : String) (index : Nat) : String :=
  ofUnits ((units s).drop index)

end Inlay.Text
