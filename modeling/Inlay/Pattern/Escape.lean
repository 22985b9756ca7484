import Inlay.Pattern.Regex

/-!
# Flags and escapes of patterns

What stands behind a backslash in a pattern, and the flags that say how the parts of a pattern are
to be understood. An escape is read as a `Primitive`, which keeps its spelling; which set of
characters that stands for depends on the flags.

* `Flags`: the state of all flags at a place of a pattern.
* `escape`: reads an escape.
* `Primitive.atom?`, `Primitive.set?`: what it stands for, on its own and inside a class.
-/

namespace Inlay.Pattern

/-! ## Flags -/

/-- **The flags** that hold at a place of a pattern. -/
structure Flags where
  /-- Letters stand for all their case forms. -/
  caseless : Bool := false
  /-- The marks for start and end also hold at lines. -/
  multiLine : Bool := false
  /-- The dot takes line feeds too. -/
  dotAll : Bool := false
  /-- Lines may also end in carriage returns. -/
  crlf : Bool := false
  /-- Classes are those of all scripts, not of ASCII alone. -/
  unicode : Bool := true
  /-- Blanks and comments between parts do not count. -/
  verbose : Bool := false
deriving DecidableEq, Repr

namespace Flags

/-- Closes a set under case, if letters stand for all their case forms. -/
def fold (flags : Flags) (set : CharSet) : CharSet :=
  if flags.caseless then if flags.unicode then .caseless set else .asciiCaseless set else set

/-- **Closes a set under case and complements it**, in this order. Without `unicode` a complement
    would take parts of characters, and is refused. -/
def foldAndNegate (flags : Flags) (negated : Bool) (set : CharSet) : Option CharSet :=
  if negated then
    if flags.unicode then some (.compl (flags.fold set)) else none
  else some (flags.fold set)

/-- What the dot takes. -/
def dot (flags : Flags) : Option CharSet :=
  if !flags.unicode then none
  else if flags.dotAll then some (.property .any)
  else if flags.crlf then some (.compl (.union (.single '\n') (.single '\r')))
  else some (.compl (.single '\n'))

/-- The mark for the start. -/
def startLook (flags : Flags) : Look :=
  if flags.multiLine then if flags.crlf then .crlfLineStart else .lineStart else .textStart

/-- The mark for the end. -/
def endLook (flags : Flags) : Look :=
  if flags.multiLine then if flags.crlf then .crlfLineEnd else .lineEnd else .textEnd

end Flags

/-! ## Blanks -/

/-- Drops blanks, and comments from `#` to the end of the line. -/
def dropVerbose (inComment : Bool) : List Char → List Char
  | [] => []
  | c :: s =>
    if inComment then dropVerbose (c != '\n') s
    else if Text.isBlank c then dropVerbose false s
    else if c = '#' then dropVerbose true s
    else c :: s

/-- **Drops what does not count** between parts, if the flags say so. -/
def Flags.skip (flags : Flags) (s : List Char) : List Char :=
  if flags.verbose then dropVerbose false s else s

/-! ## Named classes -/

/-- ASCII classes, by name. -/
def asciiRanges? : String → Option (List (Char × Char))
  | "alnum" => some [('0', '9'), ('A', 'Z'), ('a', 'z')]
  | "alpha" => some [('A', 'Z'), ('a', 'z')]
  | "ascii" => some [('\x00', '\x7f')]
  | "blank" => some [('\t', '\t'), (' ', ' ')]
  | "cntrl" => some [('\x00', '\x1f'), ('\x7f', '\x7f')]
  | "digit" => some [('0', '9')]
  | "graph" => some [('!', '~')]
  | "lower" => some [('a', 'z')]
  | "print" => some [(' ', '~')]
  | "punct" => some [('!', '/'), (':', '@'), ('[', '\x60'), ('\x7b', '~')]
  | "space" => some [('\t', '\t'), ('\n', '\n'), ('\x0b', '\x0b'), ('\x0c', '\x0c'), ('\r', '\r'),
      (' ', ' ')]
  | "upper" => some [('A', 'Z')]
  | "word" => some [('0', '9'), ('A', 'Z'), ('_', '_'), ('a', 'z')]
  | "xdigit" => some [('0', '9'), ('A', 'F'), ('a', 'f')]
  | _ => none

/-- The group of general categories that a name stands for, which is written in small letters
    without blanks, `_` and `-`. -/
def category? : String → Option Property
  | "any" => some .any
  | "ascii" => some .ascii
  | "assigned" => some .assigned
  | "l" | "letter" => some .letter
  | "lc" | "casedletter" => some .casedLetter
  | "m" | "mark" | "combiningmark" => some .mark
  | "n" | "number" => some .number
  | "p" | "punctuation" | "punct" => some .punctuation
  | "s" | "symbol" => some .symbol
  | "z" | "separator" => some .separator
  | "c" | "other" => some .other
  | "lu" | "uppercaseletter" => some (.category .uppercaseLetter)
  | "ll" | "lowercaseletter" => some (.category .lowercaseLetter)
  | "lt" | "titlecaseletter" => some (.category .titlecaseLetter)
  | "lm" | "modifierletter" => some (.category .modifierLetter)
  | "lo" | "otherletter" => some (.category .otherLetter)
  | "mn" | "nonspacingmark" => some (.category .nonspacingMark)
  | "mc" | "spacingmark" => some (.category .spacingMark)
  | "me" | "enclosingmark" => some (.category .enclosingMark)
  | "nd" | "decimalnumber" | "digit" => some (.category .decimalNumber)
  | "nl" | "letternumber" => some (.category .letterNumber)
  | "no" | "othernumber" => some (.category .otherNumber)
  | "pc" | "connectorpunctuation" => some (.category .connectorPunctuation)
  | "pd" | "dashpunctuation" => some (.category .dashPunctuation)
  | "ps" | "openpunctuation" => some (.category .openPunctuation)
  | "pe" | "closepunctuation" => some (.category .closePunctuation)
  | "pi" | "initialpunctuation" => some (.category .initialPunctuation)
  | "pf" | "finalpunctuation" => some (.category .finalPunctuation)
  | "po" | "otherpunctuation" => some (.category .otherPunctuation)
  | "sm" | "mathsymbol" => some (.category .mathSymbol)
  | "sc" | "currencysymbol" => some (.category .currencySymbol)
  | "sk" | "modifiersymbol" => some (.category .modifierSymbol)
  | "so" | "othersymbol" => some (.category .otherSymbol)
  | "zs" | "spaceseparator" => some (.category .spaceSeparator)
  | "zl" | "lineseparator" => some (.category .lineSeparator)
  | "zp" | "paragraphseparator" => some (.category .paragraphSeparator)
  | "cc" | "control" | "cntrl" => some (.category .control)
  | "cf" | "format" => some (.category .format)
  | "cs" | "surrogate" => some (.category .surrogate)
  | "co" | "privateuse" => some (.category .privateUse)
  | "cn" | "unassigned" => some (.category .unassigned)
  | _ => none

/-- **The property of a name.** -/
def property? : String → Option Property
  | "alphabetic" | "alpha" => some .alphabetic
  | "whitespace" | "wspace" | "space" => some .blank
  | name => category? name

/-- The general categories are also reached through the name of that property. -/
def categoryKeys : List String := ["gc", "generalcategory"]

/-- Writes the name of a property in the way `property?` wants it. A leading `is` does not count,
    except in `isc`. -/
def plainName (name : List Char) : String :=
  let plain :=
    (name.filter fun c => c.toNat < 0x80 && c != ' ' && c != '_' && c != '-').map Char.toLower
  String.ofList <|
    match plain with
    | 'i' :: 's' :: rest => if rest == ['c'] then plain else rest
    | _ => plain

/-- What stands before and after the first occurrence of `mark`. -/
def splitAtMark? (mark : List Char) : List Char → Option (List Char × List Char)
  | [] => none
  | c :: s =>
    if mark.isPrefixOf (c :: s) then some ([], (c :: s).drop mark.length)
    else (splitAtMark? mark s).map fun (front, back) => (c :: front, back)

/-- The group of general categories that is given as the value of a key. -/
def keyedCategory? (key value : List Char) : Option Property :=
  if categoryKeys.contains (plainName key) then category? (plainName value) else none

/-- **The property that braces name**: by its own name, or as the value of a key. The second part
    says whether it is negated there. -/
def namedProperty? (name : List Char) : Option (Property × Bool) :=
  match splitAtMark? ['!', '='] name with
  | some (key, value) => (keyedCategory? key value).map fun p => (p, true)
  | none =>
    match splitAtMark? [':'] name <|> splitAtMark? ['='] name with
    | some (key, value) => (keyedCategory? key value).map fun p => (p, false)
    | none => (property? (plainName name)).map fun p => (p, false)

/-! ## Escapes -/

/-- The classes that a letter behind a backslash names. -/
inductive LetterClass where
  | digit | space | word
deriving DecidableEq, Repr

/-- **A part of a pattern** that is written as a single character or an escape. -/
inductive Primitive where
  /-- A character; `byte` when it is spelled by the value of a byte. -/
  | literal (c : Char) (byte : Bool)
  /-- A class with a letter of its own, possibly negated. -/
  | letterClass (kind : LetterClass) (negated : Bool)
  /-- A property, possibly negated. -/
  | property (p : Property) (negated : Bool)
  /-- A mark that takes no character. -/
  | look (look : Look)
deriving Repr

/-- Characters that mean something in a pattern, and themselves behind a backslash. -/
def isMeta (c : Char) : Bool :=
  "\\.+*?()|[]\x7b\x7d^$#&-~".toList.contains c

/-- **Characters that mean themselves behind a backslash**: those that mean something without it,
    and all ASCII characters but letters, digits and angle brackets. -/
def isEscapable (c : Char) : Bool :=
  isMeta c ||
    (c.toNat < 0x80 && !Text.isAsciiLetter c && !Text.isAsciiDigit c && c != '<' && c != '>')

/-- The character with a code point, if there is one. -/
def charOf? (n : Nat) : Option Char :=
  if n.isValidChar then some (Char.ofNat n) else none

/-- Exactly `count` hexadecimal digits, appended to `value`. -/
def hexDigits (flags : Flags) : Nat → Nat → List Char → Option (Nat × List Char)
  | 0, value, s => some (value, s)
  | count + 1, value, s =>
    match s with
    | [] => none
    | c :: s => do
      let d ← Text.hexValue? c
      hexDigits flags count (16 * value + d) (flags.skip s)

/-- **The text in braces** behind the opening one, without what does not count; the part of the
    pattern behind the closing brace follows. `bound` is the length of the pattern. -/
def braced (flags : Flags) : Nat → List Char → Option (List Char × List Char)
  | 0, _ => none
  | bound + 1, s =>
    match flags.skip s with
    | [] => none
    | '\x7d' :: s => some ([], s)
    | c :: s => (braced flags bound s).map fun (text, rest) => (c :: text, rest)

/-- The value of a row of hexadecimal digits, which must not be empty. -/
def hexText? (text : List Char) : Option Nat :=
  if text.isEmpty then none
  else text.foldlM (fun value c => (Text.hexValue? c).map (16 * value + ·)) 0

/-- **A character by its code point**: `count` digits, or any number of them in braces. -/
def hexEscape (flags : Flags) (count : Nat) (s : List Char) : Option (Primitive × List Char) :=
  match flags.skip s with
  | '\x7b' :: s => do
    let (text, s) ← braced flags (s.length + 1) s
    let c ← (← hexText? text) |> charOf?
    return (.literal c false, flags.skip s)
  | s => do
    let (n, s) ← hexDigits flags count 0 s
    return (.literal (← charOf? n) (count == 2), s)

/-- **A property**: one letter, or a name in braces. -/
def propertyEscape (flags : Flags) (negated : Bool) (s : List Char) :
    Option (Primitive × List Char) :=
  match flags.skip s with
  | [] => none
  | '\x7b' :: s => do
    let (name, s) ← braced flags (s.length + 1) s
    let (p, inner) ← namedProperty? name
    return (.property p (negated != inner), s)
  | c :: s =>
    if c = '\\' then none
    else do
      let p ← property? (plainName [c])
      return (.property p negated, flags.skip s)

/-- Characters of the names of word marks. -/
def isMarkChar (c : Char) : Bool := Text.isAsciiLetter c || c == '-'

/-- The name of a word mark and what follows it; `bound` is the length of the pattern. -/
def markName (flags : Flags) : Nat → List Char → List Char × List Char
  | 0, s => ([], s)
  | bound + 1, s =>
    match s with
    | [] => ([], [])
    | c :: s =>
      if isMarkChar c then
        let (name, rest) := markName flags bound (flags.skip s)
        (c :: name, rest)
      else ([], c :: s)

/-- **A word boundary**, or one of the word marks that are named in braces behind it. Braces that
    cannot hold a name are left, as a repetition. -/
def boundaryEscape (flags : Flags) (s : List Char) : Option (Primitive × List Char) :=
  let ascii := !flags.unicode
  match s with
  | '\x7b' :: inner =>
    match flags.skip inner with
    | [] => none
    | c :: rest =>
      if isMarkChar c then
        let (name, after) := markName flags (rest.length + 1) (c :: rest)
        match after with
        | '\x7d' :: after =>
          match String.ofList name with
          | "start" => some (.look (.wordStart ascii), after)
          | "end" => some (.look (.wordEnd ascii), after)
          | "start-half" => some (.look (.wordStartHalf ascii), after)
          | "end-half" => some (.look (.wordEndHalf ascii), after)
          | _ => none
        | _ => none
      else some (.look (.boundary ascii), s)
  | s => some (.look (.boundary ascii), s)

/-- **An escape**, behind its backslash. -/
def escape (flags : Flags) : List Char → Option (Primitive × List Char)
  | [] => none
  | c :: s =>
    match c with
    | 'x' => hexEscape flags 2 s
    | 'u' => hexEscape flags 4 s
    | 'U' => hexEscape flags 8 s
    | 'p' => propertyEscape flags false s
    | 'P' => propertyEscape flags true s
    | 'd' => some (.letterClass .digit false, s)
    | 's' => some (.letterClass .space false, s)
    | 'w' => some (.letterClass .word false, s)
    | 'D' => some (.letterClass .digit true, s)
    | 'S' => some (.letterClass .space true, s)
    | 'W' => some (.letterClass .word true, s)
    | 'a' => some (.literal '\x07' false, s)
    | 'f' => some (.literal '\x0c' false, s)
    | 't' => some (.literal '\t' false, s)
    | 'n' => some (.literal '\n' false, s)
    | 'r' => some (.literal '\r' false, s)
    | 'v' => some (.literal '\x0b' false, s)
    | 'A' => some (.look .textStart, s)
    | 'z' => some (.look .textEnd, s)
    | 'b' => boundaryEscape flags s
    | 'B' => some (.look (.noBoundary !flags.unicode), s)
    | '<' => some (.look (.wordStart !flags.unicode), s)
    | '>' => some (.look (.wordEnd !flags.unicode), s)
    | c => if isEscapable c then some (.literal c false, s) else none

/-! ## Sets of primitives -/

/-- The set of a class with a letter of its own. -/
def LetterClass.set (unicode : Bool) : LetterClass → CharSet
  | digit => if unicode then .property .decimal else .range '0' '9'
  | space =>
    if unicode then .property .blank else .union (.range '\t' '\r') (.single ' ')
  | word =>
    if unicode then .property .word
    else .ofRanges [('0', '9'), ('A', 'Z'), ('_', '_'), ('a', 'z')]

/-- A class or property as a set; without `unicode` there are no properties and no complements. -/
def Primitive.classSet? (flags : Flags) : Primitive → Option CharSet
  | .letterClass kind negated =>
    if negated then
      if flags.unicode then some (.compl (kind.set true)) else none
    else some (kind.set flags.unicode)
  | .property p negated =>
    if flags.unicode then flags.foldAndNegate negated (.property p) else none
  | _ => none

/-- **A primitive as an atom.** -/
def Primitive.atom? (flags : Flags) : Primitive → Option Atom
  | .literal c byte =>
    if !flags.unicode && byte && 0x80 ≤ c.toNat then none
    else some (.char (flags.fold (.single c)))
  | .look l => some (.look l)
  | p => (p.classSet? flags).map .char

/-- A primitive as a character, where a class holds characters. -/
def Primitive.member? (flags : Flags) : Primitive → Option Char
  | .literal c _ => if !flags.unicode && 0x80 ≤ c.toNat then none else some c
  | _ => none

/-- **A primitive as a set**, where it is a part of a class. -/
def Primitive.set? (flags : Flags) (p : Primitive) : Option CharSet :=
  match p with
  | .literal _ _ => (p.member? flags).map .single
  | p => p.classSet? flags

end Inlay.Pattern
