import Keyfile.Record
import Keyfile.Text.Case
import Keyfile.Text.Quoted

/-!
# Tables of names without case

A table holds values under names whose case does not matter. Each entry keeps the spelling of its
latest write and the place of its first one. Looking up, writing and erasing are described by
`get?_insert` and `get?_erase`: both treat all spellings of one name alike.
-/

namespace Keyfile

/-- Whether two names are the same when case is ignored. -/
def sameName (a b : Text) : Bool :=
  Text.lower a == Text.lower b

/-- Values under names without case, in the order in which the names first came. -/
structure Table where
  /-- The names as last written, with their values. -/
  entries : List (Text × Text) := []
  deriving DecidableEq, Inhabited

namespace Table

def get? (table : Table) (name : Text) : Option Text :=
  let key := Text.lower name
  (table.entries.find? fun entry => Text.lower entry.1 == key).map (·.2)

def contains (table : Table) (name : Text) : Bool :=
  (table.get? name).isSome

/-- The table with `value` under `name`, in the place of any entry of that name. -/
def insert (table : Table) (name value : Text) : Table :=
  let key := Text.lower name
  ⟨place (fun entry => Text.lower entry.1 == key) (name, value) table.entries⟩

def erase (table : Table) (name : Text) : Table :=
  let key := Text.lower name
  ⟨table.entries.filter fun entry => Text.lower entry.1 != key⟩

def size (table : Table) : Nat :=
  table.entries.length

/-- The names as last written. -/
def names (table : Table) : List Text :=
  table.entries.map (·.1)

def keys (table : Table) : List Text :=
  table.entries.map fun entry => Text.lower entry.1

/-- The table of a list of pairs, in which a later value replaces an earlier one. -/
def ofPairs (pairs : List (Text × Text)) : Table :=
  pairs.foldl (fun table pair => table.insert pair.1 pair.2) {}

/-- A short description: the names. -/
def describe (table : Table) : Text :=
  "MacroTable(names=".toList ++ Text.quotedList table.names ++ [')']

/-- Writing changes the value under every spelling of the name and under no other name. -/
theorem get?_insert (table : Table) (name value other : Text) :
    (table.insert name value).get? other =
      if Text.lower other = Text.lower name then some value else table.get? other := by
  obtain ⟨entries⟩ := table
  simp only [get?, insert]
  induction entries with
  | nil =>
    by_cases h : Text.lower other = Text.lower name
    · simp [place, h]
    · have h' : Text.lower name ≠ Text.lower other := fun e => h e.symm
      simp [place, h, h']
  | cons entry rest ih =>
    by_cases hentry : Text.lower entry.1 = Text.lower name
    · by_cases h : Text.lower other = Text.lower name
      · simp [place, hentry, h]
      · have h' : Text.lower name ≠ Text.lower other := fun e => h e.symm
        simp [place, hentry, h, h']
    · by_cases hother : Text.lower entry.1 = Text.lower other
      · have h : Text.lower other ≠ Text.lower name := fun e => hentry (hother.trans e)
        simp [place, hother, h]
      · simpa [place, hentry, hother] using ih

/-- Erasing removes the value under every spelling of the name and under no other name. -/
theorem get?_erase (table : Table) (name other : Text) :
    (table.erase name).get? other =
      if Text.lower other = Text.lower name then none else table.get? other := by
  obtain ⟨entries⟩ := table
  simp only [get?, erase]
  induction entries with
  | nil => simp
  | cons entry rest ih =>
    by_cases hentry : Text.lower entry.1 = Text.lower name
    · by_cases h : Text.lower other = Text.lower name
      · simp_all
      · have h' : Text.lower name ≠ Text.lower other := fun e => h e.symm
        simpa [hentry, h, h'] using ih
    · by_cases hother : Text.lower entry.1 = Text.lower other
      · have h : Text.lower other ≠ Text.lower name := fun e => hentry (hother.trans e)
        simp [hother, h]
      · simpa [hentry, hother] using ih

end Table

end Keyfile
