import Keyfile.Text.Basic

/-!
# Lines

A line ends at any of the ten line breaks of Unicode text, a carriage return followed by a line
feed counting as one of them. The break belongs to no line, and a break at the end of the text
opens no further line. Texts read from a file first have their carriage returns made line feeds.
-/

namespace Keyfile.Text

def isLineBreak (c : Char) : Bool :=
  let n := c.toNat
  (0x0a ≤ n && n ≤ 0x0d) || (0x1c ≤ n && n ≤ 0x1e) || n == 0x85 || n == 0x2028 || n == 0x2029

def lines : Text → List Text
  | [] => []
  | '\r' :: '\n' :: rest => [] :: lines rest
  | c :: rest =>
    if isLineBreak c then [] :: lines rest
    else
      match lines rest with
      | [] => [[c]]
      | line :: others => (c :: line) :: others

/-- The text with every carriage return, and every carriage return with its line feed, made one
line feed. -/
def normalizeNewlines : Text → Text
  | [] => []
  | '\r' :: '\n' :: rest => '\n' :: normalizeNewlines rest
  | c :: rest => (if c = '\r' then '\n' else c) :: normalizeNewlines rest

/-- Whether a value has to be written over several lines. -/
def isMultiline (t : Text) : Bool :=
  t.any fun c => c == '\r' || c == '\n'

end Keyfile.Text
