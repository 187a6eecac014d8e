import Keyfile.Text.Digit

/-!
# Binary floating point numbers

A number with 64 bits in the standard binary format is kept as its bits, so that two numbers are
equal exactly when their bits are. A decimal is read as the nearest binary number; decimals beyond
the range of the format become an infinity or zero.
-/

namespace Keyfile

/-- A floating point number by its bits. -/
structure Binary64 where
  bits : UInt64
  deriving DecidableEq, Repr, Inhabited

namespace Binary64

def ofFloat (x : Float) : Binary64 :=
  ⟨x.toBits⟩

def toFloat (x : Binary64) : Float :=
  Float.ofBits x.bits

def isNegative (x : Binary64) : Bool :=
  x.bits >>> 63 == 1

def exponentBits (x : Binary64) : Nat :=
  (x.bits >>> 52 &&& 0x7ff).toNat

def fractionBits (x : Binary64) : Nat :=
  (x.bits &&& 0xfffffffffffff).toNat

def isInfinite (x : Binary64) : Bool :=
  x.exponentBits == 0x7ff && x.fractionBits == 0

def isNaN (x : Binary64) : Bool :=
  x.exponentBits == 0x7ff && x.fractionBits != 0

def isFinite (x : Binary64) : Bool :=
  x.exponentBits != 0x7ff

/-- The unit above the fraction bits: a normal number's significand has it on top of them. -/
def hiddenBit : Nat :=
  0x10000000000000

/-- The integer `m` of a finite number's magnitude `m * 2 ^ e`. -/
def significand (x : Binary64) : Nat :=
  if x.exponentBits = 0 then x.fractionBits else x.fractionBits + hiddenBit

/-- The exponent `e` of a finite number's magnitude `m * 2 ^ e`. -/
def exponent (x : Binary64) : Int :=
  if x.exponentBits = 0 then -1074 else (x.exponentBits : Int) - 1075

def floorMagnitude (x : Binary64) : Nat :=
  if 0 ≤ x.exponent then x.significand * Nat.pow 2 x.exponent.toNat
  else x.significand / Nat.pow 2 (-x.exponent).toNat

def truncated (x : Binary64) : Int :=
  if x.isNegative then -(x.floorMagnitude : Int) else x.floorMagnitude

/-- The integer nearest to a finite number's magnitude, a half going to the even neighbour. -/
def roundedMagnitude (x : Binary64) : Nat :=
  if 0 ≤ x.exponent then x.floorMagnitude
  else
    let unit := Nat.pow 2 (-x.exponent).toNat
    let floor := x.significand / unit
    let twice := 2 * (x.significand % unit)
    if twice < unit || (twice == unit && floor % 2 == 0) then floor else floor + 1

/-- The integer nearest to a finite number, a half going to the even neighbour. -/
def rounded (x : Binary64) : Int :=
  if x.isNegative then -(x.roundedMagnitude : Int) else x.roundedMagnitude

/-- The largest power of two, by its exponent, that is no larger than the positive number `n / d`. -/
def powerBelow (n d : Nat) : Int :=
  let estimate : Int := (n.log2 : Int) - d.log2
  if d * Nat.pow 2 estimate.toNat ≤ n * Nat.pow 2 (-estimate).toNat then estimate else estimate - 1

/-- The integer nearest to `n / d`, a half going to the even neighbour. -/
def nearestNat (n d : Nat) : Nat :=
  let floor := n / d
  let twice := 2 * (n % d)
  if twice < d || (twice == d && floor % 2 == 0) then floor else floor + 1

def infinityBits : Nat :=
  0x7ff * hiddenBit

/-- The bits of the number nearest to the positive number `n / d`: its significand counts units of
the last place that a number of its magnitude has, and one that is rounded up to the next power of
two carries into the exponent. -/
def nearestBits (n d : Nat) : Nat :=
  let exponent := max (powerBelow n d - 52) (-1074)
  let significand := nearestNat (n * Nat.pow 2 (-exponent).toNat) (d * Nat.pow 2 exponent.toNat)
  min ((exponent + 1074).toNat * hiddenBit + significand) infinityBits

/-- The bits of the number nearest to `m * 10 ^ e`; beyond 400 places on either side of the point
nothing but infinity and zero is left. -/
def decimalBits (m : Nat) (e : Int) : Nat :=
  let size : Int := (Text.ofNat m).length + e
  if m = 0 || size < -400 then 0
  else if 400 < size then infinityBits
  else nearestBits (m * Nat.pow 10 e.toNat) (Nat.pow 10 (-e).toNat)

/-- The number nearest to `m * 10 ^ e`, with its sign bit set when it is to be negative. -/
def ofDecimal (negative : Bool) (m : Nat) (e : Int) : Binary64 :=
  ⟨UInt64.ofNat ((if negative then 0x8000000000000000 else 0) + decimalBits m e)⟩

end Binary64

end Keyfile
