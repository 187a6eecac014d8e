import Keyfile.Number.Integer
import Keyfile.Text.Quoted

/-!
# Errors of reading values

A text that does not denote a value of the wanted kind is no error: the reader answers with nothing
and the default is taken. What remains are the errors that a reader reports.
-/

namespace Keyfile

/-- What a reader of values can report. -/
inductive ValueError
  /-- An integer has more digits than are read. -/
  | digitsExceeded (count : Nat)
  /-- The negative of a duration is no duration. -/
  | durationOutOfRange
  | typeUnsupported (type : Text)
  | typeUnreadable (type : Text)
  | bindingMalformed (text : Text)
  | serviceUnknown (name : Text)
  | portOutOfRange (port : Int)
  /-- A custom object could not be made, or its parser was broken off. -/
  | attemptEscaped (message : Text)
  deriving DecidableEq, Repr

def ValueError.message : ValueError → Text
  | digitsExceeded count =>
    "Exceeds the limit (".toList ++ Text.ofNat Numeral.digitLimit ++
      " digits) for integer string conversion: value has ".toList ++ Text.ofNat count ++
      " digits; use sys.set_int_max_str_digits() to increase the limit".toList
  | durationOutOfRange => "date value out of range".toList
  | typeUnsupported type => "No configuration parser for ".toList ++ type
  | typeUnreadable type => type ++ " does not implement try_parse()".toList
  | bindingMalformed text => "Invalid network binding: ".toList ++ Text.quoted text
  | serviceUnknown name => "Unknown service name: ".toList ++ Text.quoted name
  | portOutOfRange port => "Port out of range: ".toList ++ Text.ofInt port
  | attemptEscaped message => message

/-- The number of a numeral, an error when it has too many digits. -/
def Numeral.read (numeral : Numeral) : Except ValueError Int :=
  if numeral.exceedsLimit then .error (.digitsExceeded numeral.digits.length)
  else .ok numeral.value

end Keyfile
