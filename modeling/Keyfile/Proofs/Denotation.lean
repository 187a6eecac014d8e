import Keyfile.Proofs.CaseFolding
import Keyfile.Proofs.Trimming
import Keyfile.Value.Kind
import Mathlib.Algebra.Group.Int.Defs
import Mathlib.Algebra.Group.Nat.Defs
import Mathlib.Data.Option.Basic

/-!
# What texts denote

Relations say which value of a kind a text denotes, and which texts ask too much of their reader: an
integer with more digits than are read, or the negative of a duration that has none. Reading comes
to the denoted value, to the default where nothing is denoted, and fails for the texts that ask too
much and for no others.
-/

namespace Keyfile

variable {α β : Type} {fails : Prop}

lemma bind_eq_ok_iff {x : Except ValueError α} {f : α → Except ValueError β} {b : β} :
    x >>= f = .ok b ↔ ∃ a, x = .ok a ∧ f a = .ok b := by
  rcases x with error | a
  · exact iff_of_false (by rintro ⟨⟩) (by rintro ⟨a, ⟨⟩, -⟩)
  · refine ⟨fun h => ⟨a, rfl, h⟩, ?_⟩
    rintro ⟨_, ⟨⟩, h⟩
    exact h

/-- A reader comes to what is denoted, and to an error exactly where it may fail. -/
structure Reads (result : Except ValueError (Option α)) (denotes : α → Prop) (fails : Prop) :
    Prop where
  value (a : α) : result = .ok (some a) ↔ denotes a
  error : (∃ error, result = .error error) ↔ fails

namespace Reads

variable {result : Except ValueError (Option α)} {denotes others : α → Prop} {failing : Prop}

lemma nothing (h : Reads result denotes fails) (hfails : ¬fails) (hnone : ∀ a, ¬denotes a) :
    result = .ok none := by
  rcases result with error | _ | a
  · exact absurd (h.error.1 ⟨error, rfl⟩) hfails
  · rfl
  · exact absurd ((h.value a).1 rfl) (hnone a)

lemma congr (h : Reads result denotes fails) (hvalue : ∀ a, denotes a ↔ others a)
    (herror : fails ↔ failing) : Reads result others failing :=
  ⟨fun a => (h.value a).trans (hvalue a), h.error.trans herror⟩

lemma of_option {found : Option α} (h : ∀ a, found = some a ↔ denotes a) :
    Reads (.ok found) denotes False :=
  ⟨fun a => ⟨fun hok => (h a).1 (Except.ok.inj hok), fun ha => congrArg Except.ok ((h a).2 ha)⟩,
    by simp⟩

lemma of_error {error : ValueError} (hvalue : ∀ a, ¬denotes a) (herror : fails) :
    Reads (.error error) denotes fails :=
  ⟨fun a => iff_of_false (by rintro ⟨⟩) (hvalue a), iff_of_true ⟨error, rfl⟩ herror⟩

lemma of_none (hvalue : ∀ a, ¬denotes a) (herror : ¬fails) : Reads (.ok none) denotes fails :=
  (of_option fun a => iff_of_false (by rintro ⟨⟩) (hvalue a)).congr (fun _ => .rfl)
    (iff_of_false id herror)

lemma map (h : Reads result denotes fails) (f : α → β) :
    Reads (do return (← result).map f) (fun b => ∃ a, denotes a ∧ f a = b) fails := by
  refine ⟨fun b => ?_, ?_⟩
  · simp only [← h.value]
    rcases result with error | _ | a
    · exact iff_of_false (by rintro ⟨⟩) (by rintro ⟨a, ⟨⟩, -⟩)
    · exact iff_of_false (by rintro ⟨⟩) (by rintro ⟨a, ⟨⟩, -⟩)
    · constructor
      · rintro ⟨⟩
        exact ⟨a, rfl, rfl⟩
      · rintro ⟨_, ⟨⟩, rfl⟩
        rfl
  · rw [← h.error]
    rcases result with error | found
    · exact iff_of_true ⟨error, rfl⟩ ⟨error, rfl⟩
    · exact iff_of_false (by rintro ⟨_, ⟨⟩⟩) (by rintro ⟨_, ⟨⟩⟩)

end Reads

namespace Numeral

variable {numeral : Numeral} {bound : Int} {denotes : α → Prop}
  {rest : Int → Except ValueError (Option α)}

/-- A numeral has no more digits than are read. -/
def IsLegible (numeral : Numeral) : Prop :=
  numeral.digits.length ≤ digitLimit

/-- A numeral is legible and its number at most `bound`. -/
def Within (numeral : Numeral) (bound : Int) : Prop :=
  numeral.IsLegible ∧ numeral.value ≤ bound

lemma exceedsLimit_eq_false_iff : numeral.exceedsLimit = false ↔ numeral.IsLegible := by
  simp [exceedsLimit, IsLegible]

lemma read_of_isLegible (h : numeral.IsLegible) : numeral.read = .ok numeral.value := by
  simp [read, exceedsLimit_eq_false_iff.2 h]

lemma read_eq_ok_iff {n : Int} :
    numeral.read = .ok n ↔ numeral.IsLegible ∧ numeral.value = n := by
  rw [read, ← exceedsLimit_eq_false_iff]
  cases numeral.exceedsLimit <;> simp

lemma value?_eq_some_iff {n : Int} :
    numeral.value? = some n ↔ numeral.IsLegible ∧ numeral.value = n := by
  rw [value?, ← exceedsLimit_eq_false_iff]
  cases numeral.exceedsLimit <;> simp

/-- What is read after a numeral. -/
lemma reads_bind (h : numeral.IsLegible → Reads (rest numeral.value) denotes fails) :
    Reads (numeral.read >>= rest) (fun a => numeral.IsLegible ∧ denotes a)
      (¬numeral.IsLegible ∨ numeral.IsLegible ∧ fails) := by
  by_cases hlegible : numeral.IsLegible
  · rw [read_of_isLegible hlegible]
    exact (h hlegible).congr (by simp [hlegible]) (by simp [hlegible])
  · have hread : numeral.read = .error (.digitsExceeded numeral.digits.length) := by
      simpa [read, exceedsLimit, IsLegible] using hlegible
    rw [hread]
    exact .of_error (fun a ha => hlegible ha.1) (.inl hlegible)

/-- What is read after a numeral that has to be within a bound. -/
lemma reads_bounded (h : numeral.Within bound → Reads (rest numeral.value) denotes fails) :
    Reads (do
        let n ← numeral.read
        if bound < n then return none
        rest n)
      (fun a => numeral.Within bound ∧ denotes a)
      (¬numeral.IsLegible ∨ numeral.Within bound ∧ fails) := by
  have hbind : Reads (do
        let n ← numeral.read
        if bound < n then return none
        rest n) (fun a => numeral.IsLegible ∧ numeral.value ≤ bound ∧ denotes a)
      (¬numeral.IsLegible ∨ numeral.IsLegible ∧ numeral.value ≤ bound ∧ fails) := by
    refine reads_bind fun hlegible => ?_
    by_cases hbound : bound < numeral.value
    · rw [if_pos hbound]
      exact .of_none (fun a ha => absurd ha.1 (Int.not_le.2 hbound))
        fun h => absurd h.1 (Int.not_le.2 hbound)
    · rw [if_neg hbound]
      have hle := Int.not_lt.1 hbound
      exact (h ⟨hlegible, hle⟩).congr (by simp [hle]) (by simp [hle])
  exact hbind.congr (by simp [Within, and_assoc]) (by simp [Within, and_assoc])

end Numeral

/-- A text is a number with a magnitude: a letter for a power of 1024 behind it, or none and the
power zero. -/
inductive Magnified : Text → Text → Nat → Prop
  | plain {t : Text} (h : ∀ c ∈ t.getLast?, magnitudePower? c = none) : Magnified t t 0
  | lettered {number blanks : Text} {letter : Char} {power : Nat}
      (hletter : magnitudePower? letter = some power) (hblanks : ∀ c ∈ blanks, Text.isBlank c)
      (hnumber : ∀ c ∈ number.getLast?, Text.isBlank c = false) :
      Magnified (number ++ blanks ++ [letter]) number power

lemma Text.trimEnd_eq_self_iff {t : Text} :
    Text.trimEnd t = t ↔ ∀ c ∈ t.getLast?, Text.isBlank c = false := by
  refine List.rdropWhile_eq_self_iff.trans ⟨fun h c hc => ?_, fun h hne => ?_⟩
  · obtain ⟨hne, rfl⟩ := List.mem_getLast?_eq_getLast hc
    simpa using h hne
  · simpa using h _ (List.getLast?_eq_some_getLast hne)

lemma splitMagnitude_eq_iff {t number : Text} {power : Nat} :
    splitMagnitude t = (number, power) ↔ Magnified t number power := by
  constructor
  · intro h
    rw [splitMagnitude] at h
    split at h
    · rename_i found hfound
      obtain ⟨rfl, rfl⟩ := Prod.mk.inj h
      obtain ⟨letter, hlast, hletter⟩ := Option.bind_eq_some_iff.1 hfound
      obtain ⟨front, rfl⟩ := List.getLast?_eq_some_iff.1 hlast
      obtain ⟨blanks, hfront, hblanks⟩ := Text.exists_trimEnd_append front
      have htrimmed : Text.trimEnd (Text.trimEnd front) = Text.trimEnd front :=
        List.rdropWhile_idempotent Text.isBlank front
      have hlettered := Magnified.lettered hletter hblanks (Text.trimEnd_eq_self_iff.1 htrimmed)
      rw [List.dropLast_concat]
      rwa [← hfront] at hlettered
    · rename_i hnone
      obtain ⟨rfl, rfl⟩ := Prod.mk.inj h
      exact .plain fun c hc => Option.bind_eq_none_iff.1 hnone c hc
  · rintro (h | ⟨hletter, hblanks, hnumber⟩)
    · rw [splitMagnitude, Option.bind_eq_none_iff.2 h]
    · rw [splitMagnitude, List.getLast?_concat, Option.bind_some, hletter]
      dsimp only
      rw [List.dropLast_concat, Text.trimEnd_append_blank hblanks,
        Text.trimEnd_eq_self_iff.2 hnumber]

namespace Width

variable {width : Width} {t : Text}

variable (width t) in
/-- The integers that a text denotes: the bound that it names, or the number of a legible numeral,
scaled by its magnitude, that the width admits. -/
inductive Denotes : Int → Prop
  | named {n : Int} (h : width.constants.lookup (Text.lower (Text.trim t)) = some n) : Denotes n
  | counted {number : Text} {power : Nat} {numeral : Numeral}
      (hname : width.constants.lookup (Text.lower (Text.trim t)) = none)
      (hmagnitude : Magnified (Text.trim t) number power)
      (hnumeral : Numeral.ofText? number = some numeral) (hlegible : numeral.IsLegible)
      (hadmits : width.admits (numeral.value * 1024 ^ power)) :
      Denotes (numeral.value * 1024 ^ power)

variable (width t) in
/-- A text is a numeral with more digits than are read, with or without a magnitude. -/
def Refuses : Prop :=
  width.constants.lookup (Text.lower (Text.trim t)) = none ∧
    ∃ number power numeral, Magnified (Text.trim t) number power ∧
      Numeral.ofText? number = some numeral ∧ ¬numeral.IsLegible

/-- What a text denotes is settled by the way in which it is divided. -/
lemma denotes_iff_of_magnified {number : Text} {power : Nat} {n : Int}
    (hname : width.constants.lookup (Text.lower (Text.trim t)) = none)
    (hmagnitude : Magnified (Text.trim t) number power) :
    width.Denotes t n ↔ ∃ numeral, Numeral.ofText? number = some numeral ∧ numeral.IsLegible ∧
      width.admits (numeral.value * 1024 ^ power) ∧ numeral.value * 1024 ^ power = n := by
  constructor
  · rintro (h | ⟨-, hother, hnumeral, hlegible, hadmits⟩)
    · rw [hname] at h
      cases h
    · have hsplit := (splitMagnitude_eq_iff.2 hmagnitude).symm.trans (splitMagnitude_eq_iff.2 hother)
      obtain ⟨rfl, rfl⟩ := Prod.mk.inj hsplit
      exact ⟨_, hnumeral, hlegible, hadmits, rfl⟩
  · rintro ⟨numeral, hnumeral, hlegible, hadmits, rfl⟩
    exact .counted hname hmagnitude hnumeral hlegible hadmits

lemma refuses_iff_of_magnified {number : Text} {power : Nat}
    (hname : width.constants.lookup (Text.lower (Text.trim t)) = none)
    (hmagnitude : Magnified (Text.trim t) number power) :
    width.Refuses t ↔
      ∃ numeral, Numeral.ofText? number = some numeral ∧ ¬numeral.IsLegible := by
  constructor
  · rintro ⟨-, _, _, numeral, hother, hnumeral, hlegible⟩
    have hsplit := (splitMagnitude_eq_iff.2 hmagnitude).symm.trans (splitMagnitude_eq_iff.2 hother)
    obtain ⟨rfl, rfl⟩ := Prod.mk.inj hsplit
    exact ⟨numeral, hnumeral, hlegible⟩
  · rintro ⟨numeral, hnumeral, hlegible⟩
    exact ⟨hname, _, _, numeral, hmagnitude, hnumeral, hlegible⟩

lemma reads (width : Width) (t : Text) :
    Reads (width.read t) (width.Denotes t) (width.Refuses t) := by
  rw [read]
  dsimp only
  cases hname : width.constants.lookup (Text.lower (Text.trim t)) with
  | some bound =>
    have hdenotes (n : Int) : some bound = some n ↔ width.Denotes t n := by
      constructor
      · rintro ⟨⟩
        exact .named hname
      · rintro (h | ⟨h, -⟩)
        · rwa [hname] at h
        · rw [hname] at h
          cases h
    refine (Reads.of_option hdenotes).congr (fun _ => .rfl) (iff_of_false id ?_)
    rintro ⟨hnone, -⟩
    rw [hname] at hnone
    cases hnone
  | none =>
    rcases hsplit : splitMagnitude (Text.trim t) with ⟨number, power⟩
    have hmagnitude := splitMagnitude_eq_iff.1 hsplit
    dsimp only
    cases hnumeral : Numeral.ofText? number with
    | none =>
      exact .of_none (by simp [denotes_iff_of_magnified hname hmagnitude, hnumeral])
        (by simp [refuses_iff_of_magnified hname hmagnitude, hnumeral])
    | some numeral =>
      have hrest : Reads (.ok (if width.admits (numeral.value * Nat.pow 1024 power) then
          some (numeral.value * Nat.pow 1024 power) else none))
          (fun n => width.admits (numeral.value * 1024 ^ power) ∧
            numeral.value * 1024 ^ power = n) False := by
        have hpower : ((Nat.pow 1024 power : Nat) : Int) = 1024 ^ power := by
          rw [Nat.pow_eq, Int.natCast_pow, Int.cast_ofNat_Int]
        rw [hpower]
        exact .of_option fun n => Option.ite_none_right_eq_some.trans
          (and_congr_right fun _ => Option.some_inj)
      refine (Numeral.reads_bind fun hlegible => hrest).congr (fun n => ?_) ?_
      · rw [denotes_iff_of_magnified hname hmagnitude]
        simp [hnumeral]
      · rw [refuses_iff_of_magnified hname hmagnitude]
        simp [hnumeral]

end Width

namespace Duration

namespace Clock

variable {clock : Clock}

/-- The seconds of a clock time, zero when it gives none. -/
def secondsOrZero (clock : Clock) : Numeral :=
  clock.seconds.getD ⟨false, []⟩

def daysOrZero (clock : Clock) : Numeral :=
  clock.days.getD ⟨false, []⟩

/-- The microseconds of a clock time, without its sign. -/
def micros (clock : Clock) : Int :=
  clock.daysOrZero.value * day + clock.hours.value * 3600000000 +
    clock.minutes.value * 60000000 +
    microsOfSeconds (secondsWithFraction clock.secondsOrZero.value clock.fraction)

/-- Hours, minutes and seconds are those of a clock. -/
structure OnDial (clock : Clock) : Prop where
  hours : clock.hours.Within 23
  minutes : clock.minutes.Within 59
  seconds : clock.secondsOrZero.Within 59

/-- The durations that a clock time denotes: its own, or the negative of it, when both are in
range. -/
structure Denotes (clock : Clock) (duration : Duration) : Prop where
  dial : clock.OnDial
  days : clock.daysOrZero.IsLegible
  inRange : inRange clock.micros
  signed : duration.micros = if clock.negative then -clock.micros else clock.micros
  signedInRange : Duration.inRange duration.micros

/-- A clock time asks too much: the first of its parts that is no such part of a clock has more
digits than are read, or the duration is in range and its negative is not. -/
inductive Refuses (clock : Clock) : Prop
  | hours (h : ¬clock.hours.IsLegible)
  | minutes (hhours : clock.hours.Within 23) (h : ¬clock.minutes.IsLegible)
  | seconds (hhours : clock.hours.Within 23) (hminutes : clock.minutes.Within 59)
      (h : ¬clock.secondsOrZero.IsLegible)
  | days (hdial : clock.OnDial) (h : ¬clock.daysOrZero.IsLegible)
  | sign (hdial : clock.OnDial) (hdays : clock.daysOrZero.IsLegible)
      (hnegative : clock.negative = true) (hrange : inRange clock.micros)
      (h : inRange (-clock.micros) = false)

lemma optional_eq_read (numeral : Option Numeral) :
    optional numeral = (numeral.getD ⟨false, []⟩).read := by
  cases numeral <;> rfl

/-- The duration of a number of microseconds that may have to be made negative. -/
def signed (negative : Bool) (micros : Int) : Except ValueError (Option Duration) :=
  match ofMicros? micros with
  | none => return none
  | some duration =>
    if !negative then return some duration
    else
      match ofMicros? (-micros) with
      | some negated => return some negated
      | none => throw .durationOutOfRange

lemma read_eq_bind_signed (clock : Clock) : clock.read = (do
    let hours ← clock.hours.read
    if 23 < hours then return none
    let minutes ← clock.minutes.read
    if 59 < minutes then return none
    let seconds ← clock.secondsOrZero.read
    if 59 < seconds then return none
    let days ← clock.daysOrZero.read
    signed clock.negative (days * day + hours * 3600000000 + minutes * 60000000 +
      microsOfSeconds (secondsWithFraction seconds clock.fraction))) := by
  rw [read, optional_eq_read, optional_eq_read]
  rfl

lemma reads_signed (negative : Bool) (micros : Int) :
    Reads (signed negative micros)
      (fun duration => inRange micros ∧
        duration.micros = (if negative then -micros else micros) ∧ inRange duration.micros)
      (negative = true ∧ inRange micros = true ∧ inRange (-micros) = false) := by
  have hfound (found : Int) (duration : Duration) (hrange : inRange found = true) :
      some (⟨found⟩ : Duration) = some duration ↔
        duration.micros = found ∧ inRange duration.micros = true := by
    constructor
    · rintro ⟨⟩
      exact ⟨rfl, hrange⟩
    · rintro ⟨rfl, -⟩
      rfl
  rw [signed, ofMicros?, ofMicros?]
  cases hrange : inRange micros with
  | false => exact .of_none (by simp) (by simp)
  | true =>
    cases negative with
    | false =>
      exact (Reads.of_option fun duration => hfound micros duration hrange).congr (by simp) (by simp)
    | true =>
      cases hnegated : inRange (-micros) with
      | false =>
        refine .of_error ?_ ⟨rfl, rfl, rfl⟩
        rintro duration ⟨-, hsigned, hsignedRange⟩
        rw [hsigned, if_pos rfl, hnegated] at hsignedRange
        cases hsignedRange
      | true =>
        exact (Reads.of_option fun duration => hfound (-micros) duration hnegated).congr (by simp)
          (by simp)

lemma reads (clock : Clock) : Reads clock.read clock.Denotes clock.Refuses := by
  rw [read_eq_bind_signed]
  refine (Numeral.reads_bounded fun hhours => Numeral.reads_bounded fun hminutes =>
    Numeral.reads_bounded fun hseconds => Numeral.reads_bind fun hdays =>
      reads_signed clock.negative clock.micros).congr (fun duration => ?_) ?_
  · constructor
    · rintro ⟨hhours, hminutes, hseconds, hdays, hrange, hsigned, hsignedRange⟩
      exact ⟨⟨hhours, hminutes, hseconds⟩, hdays, hrange, hsigned, hsignedRange⟩
    · rintro ⟨⟨hhours, hminutes, hseconds⟩, hdays, hrange, hsigned, hsignedRange⟩
      exact ⟨hhours, hminutes, hseconds, hdays, hrange, hsigned, hsignedRange⟩
  · constructor
    · rintro (h | ⟨hhours, h | ⟨hminutes, h | ⟨hseconds, h | ⟨hdays, hnegative, hrange, h⟩⟩⟩⟩)
      · exact .hours h
      · exact .minutes hhours h
      · exact .seconds hhours hminutes h
      · exact .days ⟨hhours, hminutes, hseconds⟩ h
      · exact .sign ⟨hhours, hminutes, hseconds⟩ hdays hnegative hrange h
    · rintro (h | ⟨hhours, h⟩ | ⟨hhours, hminutes, h⟩ | ⟨⟨hhours, hminutes, hseconds⟩, h⟩ |
        ⟨⟨hhours, hminutes, hseconds⟩, hdays, hnegative, hrange, h⟩)
      · exact .inl h
      · exact .inr ⟨hhours, .inl h⟩
      · exact .inr ⟨hhours, .inr ⟨hminutes, .inl h⟩⟩
      · exact .inr ⟨hhours, .inr ⟨hminutes, .inr ⟨hseconds, .inl h⟩⟩⟩
      · exact .inr ⟨hhours, .inr ⟨hminutes, .inr ⟨hseconds, .inr ⟨hdays, hnegative, hrange, h⟩⟩⟩⟩

end Clock

variable {t : Text}

variable (t) in
/-- The durations that a text denotes, its case and the blanks around it apart: the longest one by
its word, that of a clock time, or a number of units when it is finite and in range. -/
inductive Denotes : Duration → Prop
  | longest (h : Text.lower (Text.trim t) = "infinite".toList) : Denotes longest
  | clock {clock : Clock} {duration : Duration} (hcolon : ':' ∈ Text.lower (Text.trim t))
      (hclock : Clock.ofText? (Text.lower (Text.trim t)) = some clock)
      (h : clock.Denotes duration) : Denotes duration
  | measured {number : Text} {unit : Float} {decimal : Decimal} {seconds : Binary64}
      (hword : Text.lower (Text.trim t) ≠ "infinite".toList)
      (hcolon : ':' ∉ Text.lower (Text.trim t))
      (hunit : splitUnit (Text.lower (Text.trim t)) = (number, unit))
      (hnumber : Decimal.ofText? number = some decimal)
      (hseconds : .ofFloat (decimal.toBinary64.toFloat * unit) = seconds)
      (hfinite : seconds.isFinite) (hrange : inRange (microsOfSeconds seconds)) :
      Denotes ⟨microsOfSeconds seconds⟩

variable (t) in
/-- A text is a clock time that asks too much. -/
def Refuses : Prop :=
  ':' ∈ Text.lower (Text.trim t) ∧
    ∃ clock, Clock.ofText? (Text.lower (Text.trim t)) = some clock ∧ clock.Refuses

lemma ofSeconds?_eq_some_iff {seconds : Binary64} {duration : Duration} :
    ofSeconds? seconds = some duration ↔ seconds.isFinite = true ∧
      inRange (microsOfSeconds seconds) = true ∧ ⟨microsOfSeconds seconds⟩ = duration := by
  rw [ofSeconds?, ofMicros?, Option.ite_none_right_eq_some, Option.ite_none_right_eq_some,
    Option.some_inj]

/-- A text with a colon denotes what it denotes as a clock time. -/
lemma denotes_iff_of_colon (hcolon : ':' ∈ Text.lower (Text.trim t)) {duration : Duration} :
    Denotes t duration ↔
      ∃ clock, Clock.ofText? (Text.lower (Text.trim t)) = some clock ∧ clock.Denotes duration := by
  constructor
  · rintro (hword | ⟨-, hclock, h⟩ | ⟨-, hnone, -, -, -, -, -⟩)
    · rw [hword] at hcolon
      exact absurd hcolon (by decide)
    · exact ⟨_, hclock, h⟩
    · exact absurd hcolon hnone
  · rintro ⟨clock, hclock, h⟩
    exact .clock hcolon hclock h

/-- A text that is neither a clock time nor the word for the longest duration denotes a number of
its unit. -/
lemma denotes_iff_of_unit {number : Text} {unit : Float}
    (hword : Text.lower (Text.trim t) ≠ "infinite".toList)
    (hcolon : ':' ∉ Text.lower (Text.trim t))
    (hunit : splitUnit (Text.lower (Text.trim t)) = (number, unit)) {duration : Duration} :
    Denotes t duration ↔ ∃ decimal, Decimal.ofText? number = some decimal ∧
      ofSeconds? (.ofFloat (decimal.toBinary64.toFloat * unit)) = some duration := by
  simp only [ofSeconds?_eq_some_iff]
  constructor
  · rintro (hinfinite | ⟨hmem, -, -⟩ | ⟨-, -, hother, hnumber, rfl, hfinite, hrange⟩)
    · exact absurd hinfinite hword
    · exact absurd hmem hcolon
    · rw [hunit] at hother
      cases hother
      exact ⟨_, hnumber, hfinite, hrange, rfl⟩
  · rintro ⟨decimal, hnumber, hfinite, hrange, rfl⟩
    exact .measured hword hcolon hunit hnumber rfl hfinite hrange

lemma reads (t : Text) : Reads (read t) (Denotes t) (Refuses t) := by
  rw [read]
  dsimp only
  split_ifs with hword hcolon
  · have hnotMem : ':' ∉ Text.lower (Text.trim t) := by
      rw [hword]
      decide
    refine (Reads.of_option fun duration => ?_).congr (fun _ => .rfl)
      (iff_of_false id fun h => hnotMem h.1)
    constructor
    · rintro ⟨⟩
      exact .longest hword
    · rintro (_ | ⟨hmem, -, -⟩ | ⟨hother, -, -, -, -, -, -⟩)
      · rfl
      · exact absurd hmem hnotMem
      · exact absurd hword hother
  · have hmem : ':' ∈ Text.lower (Text.trim t) := by simpa using hcolon
    cases hclock : Clock.ofText? (Text.lower (Text.trim t)) with
    | none =>
      exact .of_none (by simp [denotes_iff_of_colon hmem, hclock]) (by simp [Refuses, hclock])
    | some clock =>
      exact clock.reads.congr (by simp [denotes_iff_of_colon hmem, hclock])
        (by simp [Refuses, hmem, hclock])
  · have hnotMem : ':' ∉ Text.lower (Text.trim t) := by simpa using hcolon
    rcases hunit : splitUnit (Text.lower (Text.trim t)) with ⟨number, unit⟩
    refine (Reads.of_option fun duration => ?_).congr (fun _ => .rfl)
      (iff_of_false id fun h => hnotMem h.1)
    rw [denotes_iff_of_unit hword hnotMem hunit]
    exact Option.bind_eq_some_iff

end Duration

namespace Binding

variable {service? : Text → Option Int} {t : Text} {port : Int}

/-- The ports that a text denotes: the number of a legible numeral, or that of a service. -/
inductive DenotesPort (service? : Text → Option Int) (t : Text) : Int → Prop
  | number {numeral : Numeral} (hnumeral : Numeral.ofText? t = some numeral)
      (hlegible : numeral.IsLegible) : DenotesPort service? t numeral.value
  | service {port : Int} (hnumeral : Numeral.ofText? t = none)
      (hservice : service? (Text.lower t) = some port) : DenotesPort service? t port

/-- The bindings that a text denotes: a host, without the brackets around it, and behind the last
colon a port in range. -/
structure Denotes (service? : Text → Option Int) (t : Text) (binding : Binding) : Prop where
  cut : ∃ host port, Text.trim t = host ++ ':' :: port ∧ ':' ∉ port ∧ host ≠ [] ∧ port ≠ [] ∧
    withoutBrackets host = binding.host ∧ DenotesPort service? port binding.port
  range : 0 ≤ binding.port ∧ binding.port ≤ 65535

lemma denotesPort_iff_of_numeral {numeral : Numeral}
    (hnumeral : Numeral.ofText? t = some numeral) :
    DenotesPort service? t port ↔ numeral.IsLegible ∧ numeral.value = port := by
  constructor
  · rintro (⟨hother, hlegible⟩ | ⟨hnone, -⟩)
    · rw [hnumeral] at hother
      cases hother
      exact ⟨hlegible, rfl⟩
    · rw [hnumeral] at hnone
      cases hnone
  · rintro ⟨hlegible, rfl⟩
    exact .number hnumeral hlegible

lemma denotesPort_iff_of_none (hnumeral : Numeral.ofText? t = none) :
    DenotesPort service? t port ↔ service? (Text.lower t) = some port := by
  refine ⟨?_, .service hnumeral⟩
  rintro (⟨hsome, -⟩ | ⟨-, hservice⟩)
  · rw [hnumeral] at hsome
    cases hsome
  · exact hservice

/-- A number is let through when it is in the range of ports. -/
lemma checked_eq_ok_iff {n : Int} : (if 0 ≤ n && n ≤ 65535 then return n
      else throw (.portOutOfRange n) : Except ValueError Int) = .ok port ↔
    n = port ∧ 0 ≤ port ∧ port ≤ 65535 := by
  by_cases hn : 0 ≤ n ∧ n ≤ 65535
  · rw [if_pos (by simpa using hn)]
    constructor
    · rintro ⟨⟩
      exact ⟨rfl, hn⟩
    · rintro ⟨rfl, -⟩
      rfl
  · rw [if_neg (by simpa using hn)]
    refine iff_of_false (by rintro ⟨⟩) ?_
    rintro ⟨rfl, hrange⟩
    exact hn hrange

lemma readPortAmong_eq_ok_iff :
    readPortAmong service? t = .ok port ↔
      DenotesPort service? t port ∧ 0 ≤ port ∧ port ≤ 65535 := by
  rw [readPortAmong]
  cases hnumeral : Numeral.ofText? t with
  | some numeral =>
    rw [denotesPort_iff_of_numeral hnumeral]
    refine bind_eq_ok_iff.trans ?_
    simp only [checked_eq_ok_iff, Numeral.read_eq_ok_iff]
    constructor
    · rintro ⟨n, hread, rfl, hrange⟩
      exact ⟨hread, hrange⟩
    · rintro ⟨hread, hrange⟩
      exact ⟨port, hread, rfl, hrange⟩
  | none =>
    rw [denotesPort_iff_of_none hnumeral]
    dsimp only
    cases service? (Text.lower t) with
    | some found => exact checked_eq_ok_iff.trans (and_congr_left' Option.some_inj.symm)
    | none => exact iff_of_false (by rintro ⟨⟩) (by rintro ⟨⟨⟩, -⟩)

/-- A text names a binding by the parts in front of its last colon and behind it. -/
lemma readAmong_eq_ok_iff {binding : Binding} :
    readAmong service? t = .ok binding ↔
      ∃ host port, Text.trim t = host ++ ':' :: port ∧ ':' ∉ port ∧ host ≠ [] ∧ port ≠ [] ∧
        withoutBrackets host = binding.host ∧
        readPortAmong service? port = .ok binding.port := by
  rw [readAmong]
  cases hcut : Text.cutLastAt ':' (Text.trim t) with
  | none =>
    refine iff_of_false (by rintro ⟨⟩) ?_
    rintro ⟨host, port, htrim, -⟩
    exact Text.notMem_of_cutLastAt hcut (by simp [htrim])
  | some parts =>
    obtain ⟨host, port⟩ := parts
    obtain ⟨htrim, hport⟩ := Text.cutLastAt_eq_some_iff.1 hcut
    dsimp only
    by_cases hempty : host = [] ∨ port = []
    · rw [if_pos (by simpa using hempty)]
      refine iff_of_false (by rintro ⟨⟩) ?_
      rintro ⟨other, digits, hother, hdigits, hhost, hne, -⟩
      have hsame := Text.cutLastAt_eq_some_iff.2 ⟨hother, hdigits⟩
      rw [hcut] at hsame
      cases hsame
      exact hempty.elim hhost hne
    · rw [if_neg (by simpa using hempty), bind_eq_ok_iff]
      rw [not_or] at hempty
      constructor
      · rintro ⟨n, hread, ⟨⟩⟩
        exact ⟨host, port, htrim, hport, hempty.1, hempty.2, rfl, hread⟩
      · rintro ⟨other, digits, hother, hdigits, -, -, hhost, hread⟩
        have hsame := Text.cutLastAt_eq_some_iff.2 ⟨hother, hdigits⟩
        rw [hcut] at hsame
        cases hsame
        exact ⟨_, hread, by rw [hhost]; rfl⟩

lemma readAmong_eq_ok_iff_denotes {binding : Binding} :
    readAmong service? t = .ok binding ↔ Denotes service? t binding := by
  rw [readAmong_eq_ok_iff]
  simp only [readPortAmong_eq_ok_iff]
  constructor
  · rintro ⟨host, port, htrim, hport, hhost, hne, hbrackets, hdenotes, hrange⟩
    exact ⟨⟨host, port, htrim, hport, hhost, hne, hbrackets, hdenotes⟩, hrange⟩
  · rintro ⟨⟨host, port, htrim, hport, hhost, hne, hbrackets, hdenotes⟩, hrange⟩
    exact ⟨host, port, htrim, hport, hhost, hne, hbrackets, hdenotes, hrange⟩

end Binding

namespace Enumeration

variable {enumeration : Enumeration} {t name : Text}

variable (enumeration t) in
/-- The members that a text denotes: the one whose name it is, whatever its case, or else the one
whose value is the number of a legible numeral; each by its proper name. -/
inductive Denotes : Text → Prop
  | named {member : Text × MemberValue} {name : Text}
      (hmember : enumeration.members.find? (fun member =>
        Text.lower member.1 == Text.lower (Text.trim t)) = some member)
      (hname : enumeration.nameOf? member.2 = some name) : Denotes name
  | valued {numeral : Numeral} {name : Text}
      (hmember : ∀ member ∈ enumeration.members, Text.lower member.1 ≠ Text.lower (Text.trim t))
      (hnumeral : Numeral.ofText? (Text.trim t) = some numeral) (hlegible : numeral.IsLegible)
      (hname : enumeration.nameOf? (.number numeral.value) = some name) : Denotes name

lemma ofText?_eq_some_iff : enumeration.ofText? t = some name ↔ enumeration.Denotes t name := by
  rw [ofText?]
  cases hmember : enumeration.members.find? (fun member =>
      Text.lower member.1 == Text.lower (Text.trim t)) with
  | some member =>
    refine ⟨fun hname => .named hmember hname, ?_⟩
    rintro (⟨hother, hname⟩ | ⟨hnone, -, -, -⟩)
    · rw [hmember] at hother
      cases hother
      exact hname
    · have hfound := List.find?_some hmember
      exact absurd (beq_iff_eq.1 hfound) (hnone member (List.mem_of_find?_eq_some hmember))
  | none =>
    have hnone : ∀ member ∈ enumeration.members,
        Text.lower member.1 ≠ Text.lower (Text.trim t) := by
      simpa using List.find?_eq_none.1 hmember
    cases hnumeral : Numeral.ofText? (Text.trim t) with
    | none =>
      refine iff_of_false (by rintro ⟨⟩) ?_
      rintro (⟨hother, -⟩ | ⟨-, hother, -, -⟩)
      · rw [hmember] at hother
        cases hother
      · rw [hnumeral] at hother
        cases hother
    | some numeral =>
      dsimp only
      simp only [Option.bind_eq_some_iff, Numeral.value?_eq_some_iff]
      constructor
      · rintro ⟨n, ⟨hlegible, rfl⟩, hname⟩
        exact .valued hnone hnumeral hlegible hname
      · rintro (⟨hother, -⟩ | ⟨-, hother, hlegible, hname⟩)
        · rw [hmember] at hother
          cases hother
        · rw [hnumeral] at hother
          cases hother
          exact ⟨_, ⟨hlegible, rfl⟩, hname⟩

end Enumeration

namespace Kind

variable {registry : Registry}

/-- Objects of the kind can be read: custom ones need a parser of their type. -/
def IsReadable (registry : Registry) (kind : Kind) : Prop :=
  ∀ typeName, kind = .custom typeName → (registry.tryParse? typeName).isSome

/-- The value of a kind that a text denotes. -/
inductive Denotes (registry : Registry) : Kind → Text → Value → Prop
  | text (t : Text) : Denotes registry .text t (.text t)
  | yes {t : Text} (h : Text.lower (Text.trim t) ∈ Boolean.trueWords) :
      Denotes registry .boolean t (.boolean true)
  | no {t : Text} (h : Text.lower (Text.trim t) ∈ Boolean.falseWords) :
      Denotes registry .boolean t (.boolean false)
  | integer {width : Width} {t : Text} {n : Int} (h : width.Denotes t n) :
      Denotes registry (.integer width) t (.integer n)
  | float {t number : Text} {power : Nat} {decimal : Decimal}
      (hmagnitude : Magnified (Text.trim t) number power)
      (hnumber : Decimal.ofText? number = some decimal) :
      Denotes registry .float t
        (.float (.ofFloat (decimal.toBinary64.toFloat * Float.ofNat (1024 ^ power))))
  | duration {t : Text} {d : Duration} (h : Duration.Denotes t d) :
      Denotes registry .duration t (.duration d)
  | address {t : Text} {a : Address} (h : Address.ofText? (Text.trim t) = some a) :
      Denotes registry .address t (.address a)
  | binding {t : Text} {b : Binding} (h : Binding.Denotes registry.service? t b) :
      Denotes registry .binding t (.binding b)
  | uuid {t : Text} {u : Uuid} (h : Uuid.ofText? (Text.trim t) = some u) :
      Denotes registry .uuid t (.uuid u)
  | uri {t : Text} {parts : Uri.Parts} (hparts : Uri.parts? (Text.trim t) = some parts)
      (hscheme : 2 ≤ parts.scheme.length) (hplace : parts.authority ≠ [] ∨ parts.path ≠ []) :
      Denotes registry .uri t (.text (Text.trim t))
  | octets {t : Text} {o : Octets} (h : Octets.ofText? (Text.trim t) = some o) :
      Denotes registry .octets t (.octets o)
  | member {members : Enumeration} {t name : Text} (h : members.Denotes t name) :
      Denotes registry (.enumeration members) t (.member members name)
  | type {t : Text} {entry : CatalogueEntry} (h : registry.catalogue.find? t = some entry) :
      Denotes registry .type t (.type entry.type)
  | custom {typeName : TypeName} {tryParse : Text → Attempt} {t : Text} {object : Custom}
      (hparser : registry.tryParse? typeName = some tryParse) (h : tryParse t = .parsed object) :
      Denotes registry (.custom typeName) t (.custom object)

/-- A text asks too much of the reader of a kind. -/
inductive Refuses (registry : Registry) : Kind → Text → Prop
  | integer {width : Width} {t : Text} (h : width.Refuses t) : Refuses registry (.integer width) t
  | duration {t : Text} (h : Duration.Refuses t) : Refuses registry .duration t
  | custom {typeName : TypeName} {tryParse : Text → Attempt} {t message : Text}
      (hparser : registry.tryParse? typeName = some tryParse) (h : tryParse t = .escaped message) :
      Refuses registry (.custom typeName) t

lemma reads_map {kind : Kind} {t : Text} {found : Option α} {f : α → Value}
    (hvalue : ∀ a, found = some a → kind.Denotes registry t (f a))
    (hfound : ∀ value, kind.Denotes registry t value → ∃ a, found = some a ∧ f a = value)
    (hrefuses : ¬kind.Refuses registry t) :
    Reads (.ok (found.map f)) (kind.Denotes registry t) (kind.Refuses registry t) := by
  refine (Reads.of_option fun value => ?_).congr (fun _ => .rfl) (iff_of_false id hrefuses)
  rw [Option.map_eq_some_iff]
  constructor
  · rintro ⟨a, ha, rfl⟩
    exact hvalue a ha
  · exact hfound value

/-- No word stands both for yes and for no. -/
lemma notMem_falseWords : ∀ word ∈ Boolean.trueWords, word ∉ Boolean.falseWords := by
  decide

lemma reads_boolean (t : Text) : Reads (.ok ((Boolean.ofText? t).map .boolean))
    (Denotes registry .boolean t) (Refuses registry .boolean t) := by
  rw [Boolean.ofText?]
  simp only [List.contains_iff_mem]
  refine reads_map (fun yes hyes => ?_) (fun value hvalue => ?_) (by rintro ⟨⟩)
  · split_ifs at hyes with htrue hfalse
    · cases hyes
      exact .yes htrue
    · cases hyes
      exact .no hfalse
  · cases hvalue with
    | yes htrue => exact ⟨true, if_pos htrue, rfl⟩
    | no hfalse =>
      have htrue := fun h => notMem_falseWords _ h hfalse
      exact ⟨false, by rw [if_neg htrue, if_pos hfalse], rfl⟩

lemma bind_guard_eq_some_iff {p : Prop} [Decidable p] {found : Option α} {a : α} :
    ((guard p : Option Unit).bind fun _ => found) = some a ↔ p ∧ found = some a := by
  by_cases h : p
  · simp [guard, h]
  · rw [guard, if_neg h]
    exact iff_of_false (by rintro ⟨⟩) fun hp => h hp.1

lemma reads_uri (t : Text) : Reads (.ok ((Uri.ofText? t).map .text))
    (Denotes registry .uri t) (Refuses registry .uri t) := by
  have hfound (uri : Text) : Uri.ofText? t = some uri ↔ ∃ parts,
      Uri.parts? (Text.trim t) = some parts ∧ 2 ≤ parts.scheme.length ∧
        (parts.authority ≠ [] ∨ parts.path ≠ []) ∧ Text.trim t = uri := by
    rw [Uri.ofText?]
    cases hparts : Uri.parts? (Text.trim t) with
    | none => simp
    | some parts =>
      simp only [Option.some.injEq, exists_eq_left', Option.bind_eq_bind, Option.bind_some]
      refine bind_guard_eq_some_iff.trans ?_
      rw [Bool.and_eq_true, decide_eq_true_iff, Bool.not_eq_true', Bool.and_eq_false_iff,
        List.isEmpty_eq_false_iff, List.isEmpty_eq_false_iff, Option.pure_def, Option.some_inj,
        and_assoc]
  refine reads_map (fun uri huri => ?_) (fun value hvalue => ?_) (by rintro ⟨⟩)
  · obtain ⟨parts, hparts, hscheme, hplace, rfl⟩ := (hfound uri).1 huri
    exact .uri hparts hscheme hplace
  · cases hvalue with
    | uri hparts hscheme hplace => exact ⟨_, (hfound _).2 ⟨_, hparts, hscheme, hplace, rfl⟩, rfl⟩

lemma reads_float (t : Text) : Reads (.ok ((Binary64.ofText? t).map .float))
    (Denotes registry .float t) (Refuses registry .float t) := by
  rcases hsplit : splitMagnitude (Text.trim t) with ⟨number, power⟩
  rw [Binary64.ofText?, hsplit, Option.map_map]
  refine reads_map (fun decimal hnumber => .float (splitMagnitude_eq_iff.1 hsplit) hnumber)
    (fun value hvalue => ?_) (by rintro ⟨⟩)
  cases hvalue with
  | float hmagnitude hnumber =>
    cases hsplit.symm.trans (splitMagnitude_eq_iff.2 hmagnitude)
    exact ⟨_, hnumber, rfl⟩

lemma reads_binding (t : Text) : Reads (read registry .binding t)
    (Denotes registry .binding t) (Refuses registry .binding t) := by
  have hread : read registry .binding t =
      .ok ((Binding.readAmong registry.service? t).toOption.map .binding) := by
    rw [read]
    cases Binding.readAmong registry.service? t <;> rfl
  have hfound (binding : Binding) :
      (Binding.readAmong registry.service? t).toOption = some binding ↔
        Binding.Denotes registry.service? t binding := by
    rw [← Binding.readAmong_eq_ok_iff_denotes]
    cases Binding.readAmong registry.service? t <;> simp [Except.toOption]
  rw [hread]
  exact reads_map (fun binding h => .binding ((hfound binding).1 h))
    (fun | _, .binding h => ⟨_, (hfound _).2 h, rfl⟩) (by rintro ⟨⟩)

/-- A new object settles what a text denotes, and only what escapes it is an error. -/
lemma reads_custom {typeName : TypeName} (htype : (registry.tryParse? typeName).isSome)
    (t : Text) : Reads (read registry (.custom typeName) t)
      (Denotes registry (.custom typeName) t) (Refuses registry (.custom typeName) t) := by
  obtain ⟨tryParse, hparser⟩ := Option.isSome_iff_exists.1 htype
  have hdenotes (value : Value) : Denotes registry (.custom typeName) t value ↔
      ∃ object, tryParse t = .parsed object ∧ Value.custom object = value := by
    constructor
    · intro h
      cases h with
      | custom hother h =>
        cases hparser.symm.trans hother
        exact ⟨_, h, rfl⟩
    · rintro ⟨object, h, rfl⟩
      exact .custom hparser h
  have hrefuses : Refuses registry (.custom typeName) t ↔
      ∃ message, tryParse t = .escaped message := by
    constructor
    · intro h
      cases h with
      | custom hother h =>
        cases hparser.symm.trans hother
        exact ⟨_, h⟩
    · rintro ⟨message, h⟩
      exact .custom hparser h
  refine Reads.congr ?_ (fun value => (hdenotes value).symm) hrefuses.symm
  simp only [read, Registry.readObject, hparser]
  cases tryParse t with
  | parsed object => exact ⟨by simp, by simp⟩
  | declined => exact .of_none (by simp) (by simp)
  | failed => exact .of_none (by simp) (by simp)
  | escaped message => exact .of_error (by simp) ⟨message, rfl⟩

/-- Each kind is read as what it denotes. -/
lemma reads {kind : Kind} (hkind : kind.IsReadable registry) (t : Text) :
    Reads (kind.read registry t) (kind.Denotes registry t) (kind.Refuses registry t) := by
  cases kind with
  | text =>
    have hread : Reads (.ok ((some t).map .text)) (Denotes registry .text t)
        (Refuses registry .text t) :=
      reads_map (fun | _, rfl => .text t) (fun | _, .text _ => ⟨t, rfl, rfl⟩) (by rintro ⟨⟩)
    exact hread
  | boolean => exact reads_boolean t
  | integer width =>
    refine ((width.reads t).map Value.integer).congr (fun value => ?_) ⟨.integer, ?_⟩
    · constructor
      · rintro ⟨n, h, rfl⟩
        exact .integer h
      · rintro ⟨⟩
        exact ⟨_, ‹_›, rfl⟩
    · rintro ⟨h⟩
      exact h
  | float => exact reads_float t
  | duration =>
    refine ((Duration.reads t).map Value.duration).congr (fun value => ?_) ⟨.duration, ?_⟩
    · constructor
      · rintro ⟨n, h, rfl⟩
        exact .duration h
      · rintro ⟨⟩
        exact ⟨_, ‹_›, rfl⟩
    · intro h
      cases h with
      | duration h => exact h
  | address =>
    exact reads_map (fun _ h => .address h) (fun | _, .address h => ⟨_, h, rfl⟩) (by rintro ⟨⟩)
  | binding => exact reads_binding t
  | uuid => exact reads_map (fun _ h => .uuid h) (fun | _, .uuid h => ⟨_, h, rfl⟩) (by rintro ⟨⟩)
  | uri => exact reads_uri t
  | octets =>
    exact reads_map (fun _ h => .octets h) (fun | _, .octets h => ⟨_, h, rfl⟩) (by rintro ⟨⟩)
  | enumeration members =>
    exact reads_map (fun _ h => .member (Enumeration.ofText?_eq_some_iff.1 h))
      (fun | _, .member h => ⟨_, Enumeration.ofText?_eq_some_iff.2 h, rfl⟩) (by rintro ⟨⟩)
  | type => exact reads_map (fun _ h => .type h) (fun | _, .type h => ⟨_, h, rfl⟩) (by rintro ⟨⟩)
  | custom typeName => exact reads_custom (hkind typeName rfl) t

/-- What reading a text comes to when there is a default: the value that the text denotes, the
default when it denotes none, and an error only for a text that asks too much. -/
structure Answers (registry : Registry) (kind : Kind) (t : Text) (default : Value)
    (result : Except ValueError Value) : Prop where
  value : ∀ value, kind.Denotes registry t value → result = .ok value
  default : ¬kind.Refuses registry t → (∀ value, ¬kind.Denotes registry t value) →
    result = .ok default
  error : (∃ error, result = .error error) ↔ kind.Refuses registry t

lemma answers_parse {kind : Kind} (hkind : kind.IsReadable registry) (t : Text)
    (default : Value) :
    kind.Answers registry t default (kind.parse registry (some t) default) := by
  have hreads := reads hkind t
  rw [parse]
  refine ⟨fun value hvalue => ?_, fun hrefuses hnone => ?_, ?_⟩
  · rw [(hreads.value value).2 hvalue]
    rfl
  · rw [hreads.nothing hrefuses hnone]
    rfl
  · rw [← hreads.error]
    rcases kind.read registry t with error | found
    · exact iff_of_true ⟨error, rfl⟩ ⟨error, rfl⟩
    · exact iff_of_false (by rintro ⟨_, ⟨⟩⟩) (by rintro ⟨_, ⟨⟩⟩)

/-- A default is of a kind unless it is a list or an object whose type has no parser. -/
lemma exists_ofDefault {default : Value} (hlist : default ≠ .list)
    (hcustom : ∀ object, default = .custom object → (registry.tryParse? object.type).isSome) :
    ∃ kind : Kind, ofDefault registry default = .ok kind ∧ kind.IsReadable registry := by
  cases default with
  | list => exact absurd rfl hlist
  | custom object =>
    have hparser := hcustom object rfl
    refine ⟨.custom object.type, if_pos hparser, ?_⟩
    rintro _ ⟨⟩
    exact hparser
  | member members name =>
    refine ⟨_, rfl, ?_⟩
    split <;> rintro _ ⟨⟩
  | _ => exact ⟨_, rfl, by rintro _ ⟨⟩⟩

/-- Whether a reader is chosen by its kind or by the kind of a default, it answers every text with
the value that it denotes or else with the default, whatever the types, the services and the parsers
of custom objects are. Only integers with too many digits, clock times and objects that are broken
off can make it fail. -/
theorem answers_every_text (registry : Registry) (t : Text) (default : Value) :
    (∀ kind : Kind, kind.IsReadable registry →
      kind.Answers registry t default (kind.parse registry (some t) default)) ∧
    (default ≠ .list →
      (∀ object, default = .custom object → (registry.tryParse? object.type).isSome) →
      ∃ kind : Kind, ofDefault registry default = .ok kind ∧ kind.IsReadable registry ∧
        kind.Answers registry t default (parseAs registry (some t) default)) := by
  refine ⟨fun kind hkind => answers_parse hkind t default, fun hlist hcustom => ?_⟩
  obtain ⟨kind, hkind, hreadable⟩ := exists_ofDefault hlist hcustom
  refine ⟨kind, hkind, hreadable, ?_⟩
  rw [parseAs, hkind]
  exact answers_parse hreadable t default

/-- A number with a magnitude is answered with its value, by its kind and by that of a default. -/
theorem answers_kibibyte :
    parse {} (.integer .bits32) (some "1 K".toList) (.integer 5) = .ok (.integer 1024) ∧
      parseAs {} (some "1 K".toList) (.integer 5) = .ok (.integer 1024) := by
  have hdenotes (width : Width) : width.Denotes "1 K".toList 1024 := by
    have hmagnitude : Magnified (Text.trim "1 K".toList) ['1'] 1 :=
      splitMagnitude_eq_iff.1 (by decide)
    have hnumeral : Numeral.ofText? ['1'] = some ⟨false, [1]⟩ := by decide
    cases width
    all_goals
      exact .counted (by decide) hmagnitude hnumeral
        (Numeral.exceedsLimit_eq_false_iff.1 (by decide)) (by decide)
  obtain ⟨hkind, hdefault⟩ := answers_every_text {} "1 K".toList (.integer 5)
  refine ⟨(hkind (.integer .bits32) (by rintro _ ⟨⟩)).value _ (.integer (hdenotes .bits32)), ?_⟩
  obtain ⟨kind, hinteger, -, hanswers⟩ := hdefault (by decide) (by rintro _ ⟨⟩)
  obtain rfl : Kind.integer .bits64 = kind := Except.ok.inj hinteger
  exact hanswers.value _ (.integer (hdenotes .bits64))

/-- A negative clock time can be out of range where the positive one is not, and fails then. -/
theorem parseAs_earliestClock :
    parseAs {} (some "-999999999.0:01".toList) (.duration ⟨0⟩) = .error .durationOutOfRange := by
  decide +kernel

end Kind

end Keyfile
