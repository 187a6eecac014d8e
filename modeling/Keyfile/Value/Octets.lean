import Keyfile.Text.Basic
import Keyfile.Text.Hexadecimal

/-!
# Octets as text

A sequence of octets is written with two hexadecimal digits for each. Between octets, but not
between the two digits of one, blanks of ASCII may stand.
-/

namespace Keyfile

abbrev Octets := List UInt8

namespace Octets

def isSeparator (c : Char) : Bool :=
  c == ' ' || (0x09 ≤ c.toNat && c.toNat ≤ 0x0d)

def ofText? : Text → Option Octets
  | [] => some []
  | [c] => if isSeparator c then some [] else none
  | high :: low :: rest =>
    if isSeparator high then ofText? (low :: rest)
    else do
      let octet := 16 * (← Text.hexValue? high) + (← Text.hexValue? low)
      return UInt8.ofNat octet :: (← ofText? rest)

def text (octets : Octets) : Text :=
  octets.flatMap fun octet => Text.hexDigits 2 octet.toNat

end Octets

end Keyfile
