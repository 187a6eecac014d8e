import Keyfile.Number.Binary64

/-!
# Shortest decimals

The text of a floating point number has the fewest digits that read back as that number, and among
those the digits nearest to it. All numbers that read back as a given one lie between the middles
to its two neighbours; the ends belong to them when the number's significand is even. For one
digit, two digits, and so on, the two decimals around the number are looked at, until one of them
lies between the ends.
-/

namespace Keyfile

/-- The digits of a positive number and the place of its point: the number is nearly
`0.d₁d₂… * 10 ^ point`. -/
structure DecimalDigits where
  digits : Nat
  point : Int
  deriving DecidableEq, Repr

namespace Binary64

/-- A positive number and the ends between which texts read back as it, in units of one quarter of
its last place: all three are to be divided by `denominator`. -/
structure Neighbourhood where
  low : Nat
  value : Nat
  high : Nat
  denominator : Nat
  /-- Whether the ends themselves read back as the number. -/
  closed : Bool
  deriving DecidableEq, Repr

def neighbourhood (x : Binary64) : Neighbourhood :=
  let quarter := x.exponent - 2
  let scale := Nat.pow 2 quarter.toNat
  let m := x.significand
  let below := if m = hiddenBit && 1 < x.exponentBits then 1 else 2
  { low := (4 * m - below) * scale
    value := 4 * m * scale
    high := (4 * m + 2) * scale
    denominator := Nat.pow 2 (-quarter).toNat
    closed := m % 2 == 0 }

/-- How many digits the whole part of `n / d` has; for a number below one, the negated number of
zeros that follow its point. -/
def pointOf (n d : Nat) : Int :=
  if d ≤ n then (Text.ofNat (n / d)).length
  else
    match (List.range 400).find? fun zeros => d ≤ n * Nat.pow 10 (zeros + 1) with
    | some zeros => -(zeros : Int)
    | none => 0

namespace Neighbourhood

def contains (near : Neighbourhood) (c : Nat) (e : Int) : Bool :=
  let scaled := c * Nat.pow 10 e.toNat * near.denominator
  let power := Nat.pow 10 (-e).toNat
  let low := near.low * power
  let high := near.high * power
  if near.closed then low ≤ scaled && scaled ≤ high else low < scaled && scaled < high

/-- The decimal of the form `c * 10 ^ e` that reads back as the number and is nearest to it. -/
def atPlace? (near : Neighbourhood) (e : Int) : Option Nat :=
  let unit := Nat.pow 10 e.toNat * near.denominator
  let value := near.value * Nat.pow 10 (-e).toNat
  let floor := value / unit
  let twice := 2 * (value % unit)
  let floorFirst := twice < unit || (twice == unit && floor % 2 == 0)
  let candidates := if floorFirst then [floor, floor + 1] else [floor + 1, floor]
  candidates.find? (near.contains · e)

end Neighbourhood

/-- The fewest digits that read back as a finite number that is not zero. -/
def shortest (x : Binary64) : DecimalDigits :=
  let near := x.neighbourhood
  let point := pointOf near.value near.denominator
  match (List.range 17).findSome? fun n =>
      let place := point - (n + 1 : Nat)
      (near.atPlace? place).map fun c => (c, place) with
  | some (c, place) => ⟨c, place + (Text.ofNat c).length⟩
  | none => ⟨0, 0⟩

end Binary64

def withoutFinalZeros (digits : Text) : Text :=
  Text.dropTail (· == '0') digits

namespace DecimalDigits

/-- The digits around the point when the point is near them, with at least one digit on either
side. -/
def positional (digits : Text) (point : Int) : Text :=
  if point ≤ 0 then '0' :: '.' :: List.replicate (-point).toNat '0' ++ digits
  else
    let whole := point.toNat
    if digits.length ≤ whole then
      digits ++ List.replicate (whole - digits.length) '0' ++ ['.', '0']
    else digits.take whole ++ '.' :: digits.drop whole

/-- One digit before the point and a power of ten of at least two digits. -/
def scientific (digits : Text) (point : Int) : Text :=
  let power := point - 1
  let powerDigits := Text.ofNat power.natAbs
  let mantissa :=
    match digits with
    | [] | [_] => digits
    | first :: rest => first :: '.' :: rest
  mantissa ++ 'e' :: (if power < 0 then '-' else '+') ::
    (List.replicate (2 - powerDigits.length) '0' ++ powerDigits)

/-- The text of a positive number: positional from 0.0001 up to, but not including, 10 to the power
of 16. -/
def text (number : DecimalDigits) : Text :=
  let digits := withoutFinalZeros (Text.ofNat number.digits)
  if -4 < number.point && number.point ≤ 16 then positional digits number.point
  else scientific digits number.point

end DecimalDigits

def Binary64.text (x : Binary64) : Text :=
  if x.isNaN then "nan".toList
  else
    let magnitude :=
      if x.isInfinite then "inf".toList
      else if x.significand = 0 then "0.0".toList
      else x.shortest.text
    if x.isNegative then '-' :: magnitude else magnitude

end Keyfile
