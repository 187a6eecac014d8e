import Keyfile.Text.Basic
import Keyfile.Text.CaseTable

/-!
# Lower case

Names are compared by their full lower case in the sense of Unicode: a capital I with dot above
becomes two characters, and a capital sigma becomes the final sigma at the end of a word and the
medial sigma elsewhere. Every other character is lowered by itself.
-/

namespace Keyfile.Text

/-- The code point reached by a code point's simple lower case mapping beyond ASCII. -/
def lowerCodePoint (n : Nat) : Nat :=
  match caseRuns.find? fun run =>
      run.first ≤ n && n ≤ run.last && (n - run.first) % run.step == 0 with
  | some run => (run.shift + n).toNat
  | none => n

/-- The lower case of a character that does not depend on its neighbours. -/
def lowerChar (c : Char) : Text :=
  let n := c.toNat
  if n < 0x80 then [if 0x41 ≤ n && n ≤ 0x5a then Char.ofNat (n + 0x20) else c]
  else if n == 0x130 then ['i', Char.ofNat 0x307]
  else [Char.ofNat (lowerCodePoint n)]

/-- Whether the character is skipped when the neighbours of a letter are looked at. -/
def isCaseIgnorable (c : Char) : Bool :=
  caseIgnorableRanges.any fun range => range.1 ≤ c.toNat && c.toNat ≤ range.2

def isCased (c : Char) : Bool :=
  casedRanges.any fun range => range.1 ≤ c.toNat && c.toNat ≤ range.2

/-- Whether the first character that is not case-ignorable is a letter with case. -/
def meetsCased (t : Text) : Bool :=
  match t.dropWhile isCaseIgnorable with
  | [] => false
  | c :: _ => isCased c

/-- The capital sigma, whose lower case depends on its neighbours. -/
def capitalSigma : Char :=
  Char.ofNat 0x3a3

/-- The lower case of a capital sigma: final when a letter with case stands before it and none
after it. -/
def lowerSigma (before after : Text) : Char :=
  if meetsCased before && !meetsCased after then Char.ofNat 0x3c2 else Char.ofNat 0x3c3

/-- The lower case of a text that follows the characters `before`, the nearest first. -/
def lowerAfter (before : Text) : Text → Text
  | [] => []
  | c :: rest =>
    (if c = capitalSigma then [lowerSigma before rest] else lowerChar c) ++
      lowerAfter (c :: before) rest

def lower (t : Text) : Text :=
  lowerAfter [] t

end Keyfile.Text
