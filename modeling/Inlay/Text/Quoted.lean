import Inlay.Text.Class

/-!
# Quoted texts

A quoted text shows every character so that it can be told apart: printable characters stand for
themselves, a few controls have an escape of one letter, and all others are written by their code
point. A text is put in double quotes and a character in single ones; only the quote that encloses
it is escaped.
-/

namespace Inlay.Text

/-- A code point in lower-case hexadecimal, without leading zeros, in braces. -/
def escapeCode (c : Char) : List Char :=
  ['\\', 'u', '\x7b'] ++ Nat.toDigits 16 c.toNat ++ ['\x7d']

/-- **One character inside quotes** of the kind `quote`. -/
def escapeChar (quote : Char) (c : Char) : List Char :=
  if c == '\x00' then ['\\', '0']
  else if c == '\t' then ['\\', 't']
  else if c == '\n' then ['\\', 'n']
  else if c == '\r' then ['\\', 'r']
  else if c == '\\' then ['\\', '\\']
  else if c == quote then ['\\', quote]
  else if isPrintable c && !joinsBefore c then [c]
  else escapeCode c

/-- **A text in double quotes.** -/
def quoteString (s : String) : String :=
  String.ofList ('"' :: s.toList.flatMap (escapeChar '"') ++ ['"'])

/-- **A character in single quotes.** -/
def quoteChar (c : Char) : String :=
  String.ofList ('\'' :: escapeChar '\'' c ++ ['\''])

end Inlay.Text
