import Keyfile.File.Tree

/-!
# Replacing files

A file gets new contents in steps of which each leaves every other file alone: the directories above
it are made, the contents are written to a temporary file beside it, the present file is moved to
its backup when one is wanted, and the temporary file takes the place of the file. When a step fails
the temporary file is removed. So at every moment the previous contents stand under the file's own
path or under that of its backup.
-/

namespace Keyfile

/-- One step of a replacement. -/
inductive ReplacementStep
  /-- Makes the directories above a file, whose name has to leave room for that of a temporary
  file. -/
  | makeParent (path : Path)
  | writeTemporary (temporary : Path) (content : Bytes)
  /-- Moves a file, if it is there, to its name with an ending. -/
  | moveToBackup (path : Path) (ending : Text)
  | install (temporary path : Path)
  deriving DecidableEq, Repr

/-- How many characters the name of a temporary file has more than that of the file. -/
def temporaryRoom : Nat := 9

/-- Whether the name of a temporary file beside a path is too long. -/
def leavesNoRoom (path : Path) : Bool :=
  FileTree.isTooLong (path.parent ++ [path.name ++ List.replicate temporaryRoom '_'])

/-- The tree in which a file was moved, if it is there, to its name with an ending. -/
def moveToEnding (tree : FileTree) (path : Path) (ending : Text) : Except FileError FileTree :=
  if tree.contains path then
    match path.withEnding? ending with
    | none => .error .nameInvalid
    | some backup =>
      if !Path.isNameable ending then .error .nameInvalid
      else if backup.isDirectory then .error (tree.inside backup.path)
      else tree.rename path backup.path
  else .ok tree

def ReplacementStep.apply (tree : FileTree) :
    ReplacementStep → FileTree × Except FileError Unit
  | makeParent path =>
    match tree.makeDirectories path.parent with
    | (tree, .ok ()) => (tree, if leavesNoRoom path then .error .nameTooLong else .ok ())
    | (tree, .error error) => (tree, .error error)
  | writeTemporary temporary content => (tree.put temporary (.file content), .ok ())
  | moveToBackup path ending => tree.after (moveToEnding tree path ending)
  | install temporary path => tree.after (tree.rename temporary path)

/-- The places between which a step moves a file when it succeeds. -/
def ReplacementStep.move? (tree : FileTree) : ReplacementStep → Option (Path × Path)
  | makeParent _ | writeTemporary .. => none
  | moveToBackup path ending =>
    if tree.contains path then (path.withEnding? ending).map fun backup => (path, backup.path)
    else none
  | install temporary path => some (temporary, path)

/-- A tree after steps, and the error at which they stopped. -/
def runSteps (tree : FileTree) : List ReplacementStep → FileTree × Except FileError Unit
  | [] => (tree, .ok ())
  | step :: rest =>
    match step.apply tree with
    | (next, .ok ()) => runSteps next rest
    | (next, .error error) => (next, .error error)

/-- The moves that steps make until one of them fails. -/
def movesOf (tree : FileTree) : List ReplacementStep → List (Path × Path)
  | [] => []
  | step :: rest =>
    match step.apply tree with
    | (next, .ok ()) => (step.move? tree).toList ++ movesOf next rest
    | (_, .error _) => []

/-- New contents for a file. -/
structure Replacement where
  path : Path
  content : Bytes
  /-- What is added to the file's name to name its backup; no backup is kept without it. -/
  backupEnding : Option Text
  deriving DecidableEq, Repr

namespace Replacement

/-- A path beside a file whose name is longer than all names of the tree. -/
def temporary (tree : FileTree) (path : Path) : Path :=
  let longest := (tree.nodes.map fun node => node.1.name.length).foldl max path.name.length
  path.parent ++ [path.name ++ '.' :: List.replicate longest '_']

def keepsBackup (replacement : Replacement) : Bool :=
  match replacement.backupEnding with
  | none | some [] => false
  | some _ => true

def steps (replacement : Replacement) (temporary : Path) : List ReplacementStep :=
  [.makeParent replacement.path, .writeTemporary temporary replacement.content] ++
    (if replacement.keepsBackup then
      [.moveToBackup replacement.path (replacement.backupEnding.getD [])]
    else []) ++
    [.install temporary replacement.path]

/-- The path of the backup, none when no backup is kept or it cannot be named. -/
def backup? (replacement : Replacement) : Option Path :=
  if replacement.keepsBackup then
    (replacement.path.withEnding? (replacement.backupEnding.getD [])).map (·.path)
  else none

/-- The path of the temporary file of a replacement, which is not that of its backup either. -/
def scratch (replacement : Replacement) (tree : FileTree) : Path :=
  let free := temporary tree replacement.path
  if replacement.backup? = some free then free.parent ++ [free.name ++ ['_']] else free

def run (replacement : Replacement) (tree : FileTree) : FileTree × Except FileError Unit :=
  let temporary := replacement.scratch tree
  match runSteps tree (replacement.steps temporary) with
  | (after, .ok ()) => (after, .ok ())
  | (after, .error error) => (after.erase temporary, .error error)

def moves (replacement : Replacement) (tree : FileTree) : List (Path × Path) :=
  movesOf tree (replacement.steps (replacement.scratch tree))

end Replacement

end Keyfile
