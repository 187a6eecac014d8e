import Keyfile.Text.Basic

/-!
# Blank characters

The white space of a source text is the white space of Unicode together with the four
information separators; U+200B and U+FEFF are not blank. Trimming removes blanks from both ends
of a text, and `firstWord` separates the first run of other characters from what follows it.
-/

namespace Keyfile.Text

/-- White space of Unicode, or one of the information separators U+001C to U+001F. -/
def isBlank (c : Char) : Bool :=
  let n := c.toNat
  (0x09 ≤ n && n ≤ 0x0d) || (0x1c ≤ n && n ≤ 0x20) || n == 0x85 || n == 0xa0 || n == 0x1680 ||
    (0x2000 ≤ n && n ≤ 0x200a) || n == 0x2028 || n == 0x2029 || n == 0x202f || n == 0x205f ||
    n == 0x3000

def trimStart (t : Text) : Text :=
  t.dropWhile isBlank

def trimEnd (t : Text) : Text :=
  dropTail isBlank t

def trim (t : Text) : Text :=
  trimEnd (trimStart t)

def isAllBlank (t : Text) : Bool :=
  t.all isBlank

/-- The first word of the text and the trimmed rest; `none` when there is no word. -/
def firstWord (t : Text) : Option (Text × Text) :=
  match trimStart t with
  | [] => none
  | c :: rest =>
    some ((c :: rest).takeWhile (!isBlank ·), trim ((c :: rest).dropWhile (!isBlank ·)))

end Keyfile.Text
