import Keyfile.Text.Basic

/-!
# Hexadecimal digits

The sixteen digits, in either case when they are read and in lower case when they are written.
-/

namespace Keyfile.Text

def hexValue? (c : Char) : Option Nat :=
  let n := c.toNat
  if 0x30 ≤ n && n ≤ 0x39 then some (n - 0x30)
  else if 0x41 ≤ n && n ≤ 0x46 then some (n - 0x37)
  else if 0x61 ≤ n && n ≤ 0x66 then some (n - 0x57)
  else none

def natOfHexDigits (digits : List Nat) : Nat :=
  digits.foldl (fun total digit => 16 * total + digit) 0

/-- The lower case hexadecimal digits of `n`, filled with zeros to `width` digits. -/
def hexDigits (width n : Nat) : Text :=
  let digits := Nat.toDigits 16 n
  List.replicate (width - digits.length) '0' ++ digits

end Keyfile.Text
