import Keyfile.Text.Hexadecimal
import Keyfile.Text.Digit

/-!
# Internet addresses

An address has 32 bits, written as four numbers between periods, or 128 bits, written as eight
groups of hexadecimal digits between colons. In the long form one run of zero groups may be left
out, the last two groups may be written as a short address, and a zone may follow a percent sign.
The written form leaves out the first of the longest runs of at least two zero groups.
-/

namespace Keyfile

inductive Address
  | short (value : BitVec 32)
  | long (value : BitVec 128) (zone : Option Text)
  deriving DecidableEq, Repr

namespace Address

/-- The number of one part of a short address: up to three digits without leading zeros. -/
def octet? (t : Text) : Option Nat :=
  if t = [] || 3 < t.length || !(t.all fun c => '0' ≤ c && c ≤ '9') then none
  else if t ≠ ['0'] && t.head? = some '0' then none
  else
    match Text.digits? t with
    | none => none
    | some digits => if Text.natOfDigits digits ≤ 255 then some (Text.natOfDigits digits) else none

/-- The number that groups make, each group having `width` values and the first the highest. -/
def assemble (width : Nat) (groups : List Nat) : Nat :=
  groups.foldl (fun total group => total * width + group) 0

def shortOfText? (t : Text) : Option (BitVec 32) := do
  let parts := Text.splitAt '.' t
  guard (parts.length = 4)
  return BitVec.ofNat 32 (assemble 256 (← parts.mapM octet?))

def octets (value : BitVec 32) : List Nat :=
  [value.toNat / 0x1000000, value.toNat / 0x10000 % 256, value.toNat / 0x100 % 256,
    value.toNat % 256]

def shortText (value : BitVec 32) : Text :=
  Text.join ['.'] ((octets value).map Text.ofNat)

/-- The number of one group of a long address: one to four hexadecimal digits. -/
def group? (t : Text) : Option Nat :=
  if t = [] || 4 < t.length then none else (t.mapM Text.hexValue?).map Text.natOfHexDigits

/-- The parts of a long address, with a short address at the end made two groups. -/
def withShortTail? (parts : List Text) : Option (List Text) :=
  match parts.getLast? with
  | none => some parts
  | some last =>
    if last.contains '.' then do
      let value ← shortOfText? last
      return parts.dropLast ++
        [Text.hexDigits 0 (value.toNat / 0x10000), Text.hexDigits 0 (value.toNat % 0x10000)]
    else some parts

/-- One side of the place where zero groups are left out: a single empty part at the text's end
counts as no part. -/
def sideOfGap? (parts : List Text) (outermost : Option Text) : Option (List Text) :=
  if outermost = some [] then
    if parts.length = 1 then some [] else none
  else some parts

/-- The eight groups of a long address whose parts are given, zero groups filled in. -/
def groups? (parts : List Text) : Option (List Nat) := do
  let inner := (List.range parts.length).filter fun i =>
    0 < i && i + 1 < parts.length && parts[i]? == some []
  match inner with
  | [] =>
    guard (parts.length = 8)
    parts.mapM group?
  | [gap] =>
    let before ← sideOfGap? (parts.take gap) parts.head?
    let after ← sideOfGap? (parts.drop (gap + 1)) parts.getLast?
    guard (before.length + after.length < 8)
    let zeros := List.replicate (8 - (before.length + after.length)) 0
    return (← before.mapM group?) ++ zeros ++ (← after.mapM group?)
  | _ => none

/-- The long address that a text without a zone is made of. -/
def longOfText? (t : Text) : Option (BitVec 128) := do
  let parts := Text.splitAt ':' t
  guard (3 ≤ parts.length)
  let parts ← withShortTail? parts
  guard (parts.length ≤ 9)
  return BitVec.ofNat 128 (assemble 65536 (← groups? parts))

def groups (value : BitVec 128) : List Nat :=
  (List.range 8).map fun i => value.toNat / Nat.pow 65536 (7 - i) % 65536

def zerosAtStart (groups : List Nat) : Nat :=
  (groups.takeWhile (· == 0)).length

/-- The start and the length of the first of the longest runs of zero groups. -/
def longestZeroRun (groups : List Nat) : Nat × Nat :=
  (List.range groups.length).foldl (fun best start =>
    let length := zerosAtStart (groups.drop start)
    if best.2 < length then (start, length) else best) (0, 0)

def longText (value : BitVec 128) : Text :=
  let groups := groups value
  let text (groups : List Nat) := Text.join [':'] (groups.map (Text.hexDigits 0))
  let (start, length) := longestZeroRun groups
  if length < 2 then text groups
  else text (groups.take start) ++ [':', ':'] ++ text (groups.drop (start + length))

def ofText? (t : Text) : Option Address :=
  if t.contains '/' then none
  else
    match shortOfText? t with
    | some value => some (.short value)
    | none =>
      match Text.cutAt '%' t with
      | none => (longOfText? t).map (.long · none)
      | some (address, zone) =>
        if zone = [] || zone.contains '%' then none
        else (longOfText? address).map (.long · (some zone))

def text : Address → Text
  | short value => shortText value
  | long value none => longText value
  | long value (some zone) => longText value ++ '%' :: zone

/-- Whether an address is one of the machine's addresses for itself. -/
def isLoopback : Address → Bool
  | short value => value.toNat / 0x1000000 == 127
  | long value _ => value.toNat == 1

end Address

end Keyfile
