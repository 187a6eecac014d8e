import Keyfile.Number.Decimal
import Keyfile.Text.Blank
import Keyfile.Text.Case
import Keyfile.Value.Error

/-!
# Integers and numbers with a magnitude

An integer can be one of a few named bounds, or a numeral with an optional letter for a power of
1024. Its width bounds what is read: a number beyond it is not an integer of that width. Floating
point numbers take the same letters.
-/

namespace Keyfile

def magnitudePower? (letter : Char) : Option Nat :=
  match Text.lower [letter] with
  | ['k'] => some 1
  | ['m'] => some 2
  | ['g'] => some 3
  | ['t'] => some 4
  | _ => none

/-- A text without its final magnitude letter and the blanks before it, and the letter's power of
1024. -/
def splitMagnitude (t : Text) : Text × Nat :=
  match t.getLast?.bind magnitudePower? with
  | some power => (Text.trimEnd t.dropLast, power)
  | none => (t, 0)

inductive Width
  | bits32
  | bits64
  deriving DecidableEq, Repr

namespace Width

/-- The least positive integer beyond a width, which is the greatest magnitude of its negative
integers. -/
def bound : Width → Int
  | bits32 => 0x80000000
  | bits64 => 0x8000000000000000

def admits (width : Width) (n : Int) : Bool :=
  -width.bound ≤ n && n < width.bound

def constants32 : List (Text × Int) :=
  [("short.min".toList, -0x8000), ("short.max".toList, 0x7fff), ("ushort.max".toList, 0xffff),
    ("int.min".toList, -0x80000000), ("int.max".toList, 0x7fffffff)]

def constants : Width → List (Text × Int)
  | bits32 => constants32
  | bits64 =>
    constants32 ++ [("uint.max".toList, 0xffffffff), ("long.min".toList, -0x8000000000000000),
      ("long.max".toList, 0x7fffffffffffffff)]

def read (width : Width) (t : Text) : Except ValueError (Option Int) :=
  let t := Text.trim t
  match width.constants.lookup (Text.lower t) with
  | some n => .ok (some n)
  | none =>
    let (number, power) := splitMagnitude t
    match Numeral.ofText? number with
    | none => .ok none
    | some numeral => do
      let n := (← numeral.read) * Nat.pow 1024 power
      return if width.admits n then some n else none

end Width

def Binary64.ofText? (t : Text) : Option Binary64 :=
  let (number, power) := splitMagnitude (Text.trim t)
  (Decimal.ofText? number).map fun decimal =>
    .ofFloat (decimal.toBinary64.toFloat * Float.ofNat (Nat.pow 1024 power))

end Keyfile
