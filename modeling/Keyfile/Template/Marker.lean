import Keyfile.Template.Line

/-!
# Markers

A comment line of the form `// $replace(tag)` marks the line below it. Blanks of ASCII may stand
around the parts, the word is taken in any case, and the tag runs to the first closing parenthesis.
-/

namespace Keyfile.Template

def isBlankByte (b : UInt8) : Bool :=
  b == 0x20 || (0x09 ≤ b && b ≤ 0x0d)

def trimStart (bytes : Bytes) : Bytes :=
  bytes.dropWhile isBlankByte

def trim (bytes : Bytes) : Bytes :=
  ((trimStart bytes).reverse.dropWhile isBlankByte).reverse

/-- A letter of ASCII in lower case, any other byte as it is. -/
def lowerByte (b : UInt8) : UInt8 :=
  if 0x41 ≤ b && b ≤ 0x5a then b + 0x20 else b

def slashes : Bytes := [0x2f, 0x2f]

def markerWord : Bytes :=
  "$replace(".toList.map fun c => UInt8.ofNat c.toNat

def closing : UInt8 := 0x29

def after? (beginning bytes : Bytes) : Option Bytes :=
  if beginning.isPrefixOf (bytes.map lowerByte) then some (bytes.drop beginning.length) else none

/-- The tag between the parentheses: its blanks are dropped, but one is kept when there is nothing
else. -/
def tagOf? (inside : Bytes) : Option Bytes :=
  match trim inside with
  | [] => inside.getLast?.map fun b => [b]
  | tag => some tag

def marker? (line : Bytes) : Option Bytes := do
  let afterSlashes ← after? slashes (trimStart line)
  let inside ← after? markerWord (trimStart afterSlashes)
  match inside.dropWhile (· != closing) with
  | [] => none
  | _ :: rest =>
    if rest.all isBlankByte then tagOf? (inside.takeWhile (· != closing)) else none

end Keyfile.Template
