import Keyfile.Text.Blank
import Keyfile.Text.Case
import Keyfile.Number.Integer

/-!
# Enumerations

An enumeration has named members with values. A member whose value an earlier member has is another
name for that one. A text names a member by any of its names, whatever the case, or by its value
when that is an integer. The members can be texts themselves, which are read as any other text.
-/

namespace Keyfile

/-- The value of a member. -/
inductive MemberValue
  | number (value : Int)
  | text (value : Text)
  deriving DecidableEq, Repr

/-- The members of an enumeration in the order of their definition. -/
structure Enumeration where
  members : List (Text × MemberValue)
  /-- Whether the members are texts as well. -/
  areTexts : Bool := false
  deriving DecidableEq, Repr

namespace Enumeration

/-- The proper name of the member with a value: that of the first one that has it. -/
def nameOf? (enumeration : Enumeration) (value : MemberValue) : Option Text :=
  (enumeration.members.find? (·.2 == value)).map (·.1)

def canonical (enumeration : Enumeration) (name : Text) : Text :=
  ((enumeration.members.lookup name).bind enumeration.nameOf?).getD name

def ofText? (enumeration : Enumeration) (t : Text) : Option Text :=
  let t := Text.trim t
  let low := Text.lower t
  match enumeration.members.find? fun member => Text.lower member.1 == low with
  | some member => enumeration.nameOf? member.2
  | none =>
    match Numeral.ofText? t with
    | none => none
    | some numeral => numeral.value?.bind fun n => enumeration.nameOf? (.number n)

end Enumeration

end Keyfile
