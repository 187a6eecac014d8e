import Keyfile.Text.Basic

/-!
# Records

A record is a list of names with their values in the order in which the names first came. Putting
a value under a name that is already there keeps its place, so a record never holds a name twice.
Names are compared as they are written.
-/

namespace Keyfile

/-- Puts `a` in the place of the first element that satisfies `p`, at the end when none does. -/
def place {α : Type} (p : α → Bool) (a : α) : List α → List α
  | [] => [a]
  | b :: rest => if p b then a :: rest else b :: place p a rest

/-- Names and values in the order in which the names first came. -/
abbrev Record := List (Text × Text)

namespace Record

def get? (record : Record) (name : Text) : Option Text :=
  (record.find? (·.1 == name)).map (·.2)

def put (record : Record) (name value : Text) : Record :=
  place (·.1 == name) (name, value) record

/-- The record of a list of pairs, in which a later value replaces an earlier one. -/
def ofPairs (pairs : List (Text × Text)) : Record :=
  pairs.foldl (fun record pair => record.put pair.1 pair.2) []

end Record

end Keyfile
