import Keyfile.Text.Blank
import Keyfile.Text.Digit
import Keyfile.Text.Hexadecimal

/-!
# Universally unique identifiers

An identifier has 128 bits. Its text is read as a hexadecimal number of 32 characters once the
marks `urn:` and `uuid:`, the braces around it and all hyphens are left out; the number may have
blanks around it, a plus sign and a base mark in front, and single underscores between its digits.
-/

namespace Keyfile

/-- An identifier of 128 bits. -/
structure Uuid where
  value : BitVec 128
  deriving DecidableEq, Repr

namespace Uuid

/-- The text without the occurrences of a mark, found from left to right; `bound` limits their
number. -/
def withoutMark (mark : Text) : Nat → Text → Text
  | 0, t => t
  | bound + 1, t =>
    match Text.cutFirst mark t with
    | none => t
    | some (before, after) => before ++ withoutMark mark bound after

def withoutBraces (t : Text) : Text :=
  let isBrace (c : Char) : Bool := c == '\x7b' || c == '\x7d'
  Text.dropTail isBrace (t.dropWhile isBrace)

/-- The blanks that may stand around a number: those of ASCII but the separators, and all others. -/
def isNumberBlank (c : Char) : Bool :=
  Text.isBlank c && !(0x1c ≤ c.toNat && c.toNat ≤ 0x1f)

def withPlainDigits (t : Text) : Text :=
  t.map fun c => ((Text.digitValue? c).map fun value => Char.ofNat (0x30 + value)).getD c

def digitsWithUnderscores? : Text → Option (List Nat)
  | [] => none
  | [c] => (Text.hexValue? c).map fun value => [value]
  | c :: '_' :: rest => do return (← Text.hexValue? c) :: (← digitsWithUnderscores? rest)
  | c :: rest => do return (← Text.hexValue? c) :: (← digitsWithUnderscores? rest)

def withoutBase (t : Text) : Text :=
  match t with
  | '0' :: x :: rest =>
    if x = 'x' || x = 'X' then
      match rest with
      | '_' :: digits => digits
      | _ => rest
    else t
  | _ => t

def number? (t : Text) : Option Nat :=
  let t := withPlainDigits (Text.dropTail isNumberBlank (t.dropWhile isNumberBlank))
  let unsigned :=
    match t with
    | '+' :: rest => rest
    | _ => t
  (digitsWithUnderscores? (withoutBase unsigned)).map Text.natOfHexDigits

def ofText? (t : Text) : Option Uuid := do
  let t := withoutMark "urn:".toList t.length t
  let t := withoutMark "uuid:".toList t.length t
  let t := (withoutBraces t).filter (· != '-')
  guard (t.length = 32)
  return ⟨BitVec.ofNat 128 (← number? t)⟩

/-- The text of an identifier: 32 digits in five groups. -/
def text (uuid : Uuid) : Text :=
  let digits := Text.hexDigits 32 uuid.value.toNat
  let part (start length : Nat) := (digits.drop start).take length
  Text.join ['-'] [part 0 8, part 8 4, part 12 4, part 16 4, part 20 12]

end Uuid

end Keyfile
