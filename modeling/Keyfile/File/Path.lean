import Keyfile.Text.Basic

/-!
# Paths

A path is the list of the names that lead to a file from the root. A text is resolved against a
working directory; a single period stands for the place where it stands, and two periods lead one
step back. A first name that begins with a tilde stands for a home directory.
-/

namespace Keyfile

/-- The names on the way from the root to a file. -/
abbrev Path := List Text

namespace Path

def step (path : Path) (name : Text) : Path :=
  if name = [] || name = ['.'] then path
  else if name = ['.', '.'] then path.dropLast
  else path ++ [name]

def isStep (name : Text) : Bool :=
  name != [] && name != ['.']

def steps (t : Text) : List Text :=
  (Text.splitAt '/' t).filter isStep

/-- Where a text starts from, the root or the working directory, and the names in it that lead
somewhere else, as one text. -/
def collapsed (t : Text) : Text :=
  let way := Text.join ['/'] (steps t)
  if t.head? = some '/' then '/' :: way else way

/-- Whether a text can name anything: no name holds the null character. -/
def isNameable (t : Text) : Bool :=
  !t.contains (Char.ofNat 0)

/-- The text with a home directory in the place of a first name that begins with a tilde; `homeOf`
gives the home directory of the user whose name follows the tilde. -/
def expandHome (homeOf : Text → Option Text) (t : Text) : Option Text :=
  if t.head? = some '/' then some t
  else
    match steps t with
    | ('~' :: user) :: rest => (homeOf user).map fun home => Text.join ['/'] (home :: rest)
    | _ => some t

/-- Where a text starts from: the root, or a working directory. -/
def start (directory : Path) (t : Text) : Path :=
  if t.head? = some '/' then [] else directory

/-- The path that a text names, seen from a working directory; a tilde is a name like others. -/
def ofText (directory : Path) (t : Text) : Path :=
  (Text.splitAt '/' t).foldl step (start directory t)

def text (path : Path) : Text :=
  '/' :: Text.join ['/'] path

/-- The places on the way to a path, the root first and the path itself left out. -/
def ancestors (path : Path) : List Path :=
  (List.range path.length).map path.take

def parent (path : Path) : Path :=
  path.dropLast

def name (path : Path) : Text :=
  path.getLast?.getD []

structure Neighbour where
  path : Path
  isDirectory : Bool
  deriving DecidableEq, Repr

/-- The neighbour of a path whose name is the path's name with an ending. The ending may go on with
names that lead nowhere else; those ask for a directory. -/
def withEnding? (path : Path) (ending : Text) : Option Neighbour :=
  if path = [] || ending.getLast? = some '/' then none
  else
    match Text.splitAt '/' (path.name ++ ending) with
    | name :: rest =>
      if rest.any isStep then none else some ⟨path.parent ++ [name], !rest.isEmpty⟩
    | [] => none

end Path

end Keyfile
