import Keyfile.Number.Decimal
import Keyfile.Number.Shortest
import Keyfile.Text.Blank
import Keyfile.Text.Case
import Keyfile.Value.Error

/-!
# Durations

A duration is a whole number of microseconds, less than a billion days in either direction. It is
written as a clock time with optional days, seconds and fraction, or as a number with an optional
unit; the word `infinite` stands for the longest duration.
-/

namespace Keyfile

structure Duration where
  micros : Int
  deriving DecidableEq, Repr, Inhabited

namespace Duration

def day : Int := 86400000000

def longest : Duration :=
  ⟨1000000000 * day - 1⟩

def inRange (micros : Int) : Bool :=
  -(999999999 * day) ≤ micros && micros ≤ longest.micros

def ofMicros? (micros : Int) : Option Duration :=
  if inRange micros then some ⟨micros⟩ else none

/-- The microseconds nearest to a finite number of seconds: the whole seconds are exact, the
fraction is scaled as a floating point number, and a half goes to the even neighbour. -/
def microsOfSeconds (seconds : Binary64) : Int :=
  let whole := seconds.truncated
  let fraction :=
    if seconds.exponent < 0 then seconds.toFloat - Float.ofInt whole else 0
  whole * 1000000 + (Binary64.ofFloat (fraction * 1000000)).rounded

def ofSeconds? (seconds : Binary64) : Option Duration :=
  if seconds.isFinite then ofMicros? (microsOfSeconds seconds) else none

/-- The parts of a clock time, as numerals. -/
structure Clock where
  negative : Bool
  days : Option Numeral
  hours : Numeral
  minutes : Numeral
  seconds : Option Numeral
  /-- The values of the digits of the fraction of a second. -/
  fraction : Option (List Nat)
  deriving DecidableEq, Repr

def unsigned? (t : Text) : Option Numeral :=
  if t = [] then none else (Text.digits? t).map (⟨false, ·⟩)

def daysAndHours? (t : Text) : Option (Option Numeral × Numeral) :=
  match Text.cutAt '.' t with
  | none => (unsigned? t).map (none, ·)
  | some (days, hours) => do return (some (← unsigned? days), ← unsigned? hours)

def secondsAndFraction? (t : Text) : Option (Numeral × Option (List Nat)) :=
  match Text.cutAt '.' t with
  | none => (unsigned? t).map (·, none)
  | some (seconds, fraction) => do
    return (← unsigned? seconds, some (← unsigned? fraction).digits)

def Clock.ofText? (t : Text) : Option Clock := do
  let (negative, t) :=
    match t with
    | '-' :: rest => (true, rest)
    | _ => (false, t)
  match Text.splitAt ':' t with
  | [first, minutes] =>
    let (days, hours) ← daysAndHours? first
    return ⟨negative, days, hours, ← unsigned? minutes, none, none⟩
  | [first, minutes, last] =>
    let (days, hours) ← daysAndHours? first
    let (seconds, fraction) ← secondsAndFraction? last
    return ⟨negative, days, hours, ← unsigned? minutes, some seconds, fraction⟩
  | _ => none

def optional (numeral : Option Numeral) : Except ValueError Int :=
  match numeral with
  | none => .ok 0
  | some numeral => numeral.read

def secondsWithFraction (seconds : Int) (fraction : Option (List Nat)) : Binary64 :=
  let part :=
    match fraction with
    | none => 0
    | some digits => (Binary64.ofDecimal false (Text.natOfDigits digits) (-digits.length)).toFloat
  .ofFloat (Float.ofInt seconds + part)

/-- The duration of a clock time; hours, minutes and seconds have to be those of a clock. -/
def Clock.read (clock : Clock) : Except ValueError (Option Duration) := do
  let hours ← clock.hours.read
  if 23 < hours then return none
  let minutes ← clock.minutes.read
  if 59 < minutes then return none
  let seconds ← optional clock.seconds
  if 59 < seconds then return none
  let days ← optional clock.days
  let micros := days * day + hours * 3600000000 + minutes * 60000000 +
    microsOfSeconds (secondsWithFraction seconds clock.fraction)
  match ofMicros? micros with
  | none => return none
  | some duration =>
    if !clock.negative then return some duration
    else
      match ofMicros? (-micros) with
      | some negated => return some negated
      | none => throw .durationOutOfRange

/-- The units and their lengths in seconds, in the order in which they are looked for. -/
def units : List (Text × Float) :=
  [("ms".toList, 0.001), ("s".toList, 1), ("m".toList, 60), ("h".toList, 3600),
    ("d".toList, 86400)]

/-- A text without its final unit and the blanks before it, and the length of the unit; without a
unit the text counts seconds. -/
def splitUnit (t : Text) : Text × Float :=
  match units.find? fun unit => unit.1.isSuffixOf t && unit.1.length < t.length with
  | some unit => (Text.trimEnd (t.take (t.length - unit.1.length)), unit.2)
  | none => (t, 1)

def read (t : Text) : Except ValueError (Option Duration) :=
  let t := Text.lower (Text.trim t)
  if t = "infinite".toList then .ok (some longest)
  else if t.contains ':' then
    match Clock.ofText? t with
    | none => .ok none
    | some clock => clock.read
  else
    let (number, unit) := splitUnit t
    .ok <| (Decimal.ofText? number).bind fun decimal =>
      ofSeconds? (.ofFloat (decimal.toBinary64.toFloat * unit))

/-- The text of a duration: milliseconds, with a fraction where it is needed. -/
def text (duration : Duration) : Text :=
  if duration = longest then "infinite".toList
  else
    let micros := duration.micros
    if micros % 1000 = 0 then Text.ofInt (micros / 1000) ++ ['m', 's']
    else (Binary64.ofDecimal (decide (micros < 0)) micros.natAbs (-3)).text ++ ['m', 's']

end Duration

end Keyfile
