import Keyfile.Text.Basic

/-!
# Levels

A level is an integer; some levels have names. A name is taken in any case. A level without a name
is called by its number.
-/

namespace Keyfile.Log

/-- The names of levels; of two names for a level the first is written. -/
def levelNames : List (Text × Int) :=
  [("CRITICAL".toList, 50), ("FATAL".toList, 50), ("ERROR".toList, 40),
    ("WARNING".toList, 30), ("WARN".toList, 30), ("INFO".toList, 20), ("DEBUG".toList, 10),
    ("NOTSET".toList, 0)]

def warningLevel : Int := 30

/-- The capital of a letter of ASCII; the dotless i and the long s have capitals there too. -/
def capital (c : Char) : Char :=
  let n := c.toNat
  if 0x61 ≤ n && n ≤ 0x7a then Char.ofNat (n - 0x20)
  else if n == 0x131 then 'I'
  else if n == 0x17f then 'S'
  else c

def levelOfName? (name : Text) : Option Int :=
  levelNames.lookup (name.map capital)

def levelName (level : Int) : Text :=
  match levelNames.find? (·.2 == level) with
  | some named => named.1
  | none => "Level ".toList ++ Text.ofInt level

/-- How a level is given. -/
inductive LevelChoice
  | number (level : Int)
  | name (name : Text)
  deriving DecidableEq, Repr

/-- The level that is given; for a name without a level the name is given back. -/
def LevelChoice.resolve : LevelChoice → Except Text Int
  | number level => .ok level
  | name text =>
    match levelOfName? text with
    | some level => .ok level
    | none => .error text

end Keyfile.Log
