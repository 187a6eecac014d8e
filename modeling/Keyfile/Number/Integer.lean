import Keyfile.Text.Digit

/-!
# Integers as text

An integer is written as decimal digits after an optional sign. Digits of any script count. A
numeral of more than `digitLimit` digits is refused instead of being read.
-/

namespace Keyfile

/-- An optional sign and decimal digits, as they stand in a text. -/
structure Numeral where
  negative : Bool
  /-- The values of the digits, the most significant first. -/
  digits : List Nat
  deriving DecidableEq, Repr

namespace Numeral

def digitLimit : Nat := 4300

def ofText? (t : Text) : Option Numeral :=
  let (negative, unsigned) :=
    match t with
    | '-' :: rest => (true, rest)
    | '+' :: rest => (false, rest)
    | _ => (false, t)
  if unsigned = [] then none else (Text.digits? unsigned).map (⟨negative, ·⟩)

def exceedsLimit (numeral : Numeral) : Bool :=
  digitLimit < numeral.digits.length

def magnitude (numeral : Numeral) : Nat :=
  Text.natOfDigits numeral.digits

def value (numeral : Numeral) : Int :=
  if numeral.negative then -(numeral.magnitude : Int) else numeral.magnitude

/-- The number that a numeral stands for, unless it has too many digits. -/
def value? (numeral : Numeral) : Option Int :=
  if numeral.exceedsLimit then none else some numeral.value

end Numeral

end Keyfile
