import Keyfile.Text.Encoding

/-!
# Lines of bytes

Templates are worked on as bytes, so that what is not replaced stays as it is. A line ends at a
line feed, a carriage return, or both together, and keeps its ending.
-/

namespace Keyfile.Template

/-- A line of bytes with its ending, which is empty only for the last line. -/
structure Line where
  content : Bytes
  ending : Bytes
  deriving DecidableEq, Repr

def Line.bytes (line : Line) : Bytes :=
  line.content ++ line.ending

def lineFeed : UInt8 := 0x0a

def carriageReturn : UInt8 := 0x0d

def extendFirst (b : UInt8) : List Line → List Line
  | [] => [⟨[b], []⟩]
  | line :: rest => { line with content := b :: line.content } :: rest

def lines : Bytes → List Line
  | [] => []
  | b :: rest =>
    if b = lineFeed then ⟨[], [b]⟩ :: lines rest
    else if b = carriageReturn then
      match rest with
      | c :: others =>
        if c = lineFeed then ⟨[], [b, c]⟩ :: lines others
        else ⟨[], [b]⟩ :: lines (c :: others)
      | [] => [⟨[], [b]⟩]
    else extendFirst b (lines rest)

end Keyfile.Template
