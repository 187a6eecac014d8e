import Keyfile.Text.Blank

/-!
# Keys

The parts of a key are separated by periods, and a key may end in an index between brackets.
Joining two keys puts one period between them whether or not either already brings it along, and
passes over a key that is missing or blank.
-/

namespace Keyfile.Key

def autoIndex : Text :=
  ['[', '-', ']']

def withoutFinalPeriod (key : Text) : Text :=
  if key.getLast? = some '.' then key.dropLast else key

def withoutInitialPeriod (key : Text) : Text :=
  match key with
  | '.' :: rest => rest
  | _ => key

/-- The two keys joined by one period; a missing or blank key is passed over. -/
def join (first second : Option Text) : Option Text :=
  match first.map withoutFinalPeriod, second.map withoutInitialPeriod with
  | none, second => second
  | some first, second =>
    if Text.isAllBlank first then second
    else
      match second with
      | none => some first
      | some second =>
        if Text.isAllBlank second then some first else some (first ++ '.' :: second)

/-- The full name of a key below a scope; a key that joins to nothing keeps its own name. -/
def qualify (scope : Option Text) (key : Text) : Text :=
  match join scope (some key) with
  | some [] => key
  | some full => full
  | none => key

def indexed (base : Text) (index : Nat) : Text :=
  base ++ '[' :: Text.ofNat index ++ [']']

/-- The base and the index of a key that ends in an index and has a base before it. -/
def splitIndexed (key : Text) : Option (Text × Text) :=
  if key.getLast? = some ']' then
    match Text.cutLastAt '[' key with
    | some ([], _) => none
    | some (base, rest) => some (base, rest.dropLast)
    | none => none
  else none

end Keyfile.Key
