/-!
# Bytes of a text

Sizes and cuts of a text counted in the bytes of its UTF-8 form. A cut exists only where a character
ends.
-/

namespace Inlay.Text

/-- **The size of a text in bytes.** -/
def byteLength (s : List Char) : Nat := s.foldr (fun c size => c.utf8Size + size) 0

/-- **Cuts a text behind its first `n` bytes**, unless that falls inside a character or behind the
    end. -/
def splitAtByte? (n : Nat) : List Char → Option (List Char × List Char)
  | [] => if n = 0 then some ([], []) else none
  | c :: rest =>
    if n = 0 then some ([], c :: rest)
    else if c.utf8Size ≤ n then
      (splitAtByte? (n - c.utf8Size) rest).map fun (front, back) => (c :: front, back)
    else none

end Inlay.Text
