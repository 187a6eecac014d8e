import Keyfile.Number.Binary64
import Keyfile.Number.Integer

/-!
# Decimals as text

A decimal is written as digits with an optional sign, an optional point and an optional power of
ten; there is at least one digit before or after the point.
-/

namespace Keyfile

/-- The parts of a decimal, as they stand in a text. -/
structure Decimal where
  negative : Bool
  /-- The values of the digits before the point. -/
  whole : List Nat
  /-- The values of the digits after the point. -/
  fraction : List Nat
  exponent : Int
  deriving DecidableEq, Repr

namespace Decimal

/-- The power of ten that a text gives after its digits; nothing stands for the power zero. -/
def exponentOfText? (t : Text) : Option Int :=
  match t with
  | [] => some 0
  | c :: rest =>
    if c = 'e' || c = 'E' then (Numeral.ofText? rest).map (·.value) else none

def ofText? (t : Text) : Option Decimal := do
  let (negative, unsigned) :=
    match t with
    | '-' :: rest => (true, rest)
    | '+' :: rest => (false, rest)
    | _ => (false, t)
  let whole ← Text.digits? (unsigned.takeWhile Text.isDigit)
  let (fraction, rest) ←
    match unsigned.dropWhile Text.isDigit with
    | '.' :: after =>
      (Text.digits? (after.takeWhile Text.isDigit)).map (·, after.dropWhile Text.isDigit)
    | rest => some ([], rest)
  guard !(whole.isEmpty && fraction.isEmpty)
  return ⟨negative, whole, fraction, ← exponentOfText? rest⟩

def toBinary64 (decimal : Decimal) : Binary64 :=
  .ofDecimal decimal.negative (Text.natOfDigits (decimal.whole ++ decimal.fraction))
    (decimal.exponent - decimal.fraction.length)

end Decimal

end Keyfile
