import Keyfile.Value.Address

/-!
# Netmasks

A netmask is written as its number of leading ones, as a short address that begins with so many
ones, or as the complement of such an address.
-/

namespace Keyfile.Netmask

def leadingOnes? (value : Nat) : Option Nat :=
  (List.range 33).find? fun ones => value == 0x100000000 - Nat.pow 2 (32 - ones)

def ofCount? (t : Text) : Option Nat := do
  guard (t ≠ [] && t.all fun c => '0' ≤ c && c ≤ '9')
  let digits ← Text.digits? t
  guard (digits.length ≤ 4300)
  let count := Text.natOfDigits digits
  guard (count ≤ 32)
  return count

/-- The number of leading ones of the netmask that a text is made of. -/
def ofText? (t : Text) : Option Nat :=
  match ofCount? t with
  | some count => some count
  | none =>
    match Address.shortOfText? t with
    | none => none
    | some value =>
      match leadingOnes? value.toNat with
      | some ones => some ones
      | none => leadingOnes? (0xffffffff - value.toNat)

end Keyfile.Netmask
