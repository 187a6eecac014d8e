import Keyfile.File.Replacement
import Keyfile.Session.World
import Keyfile.Text.Lines

/-!
# Files of a session

Texts and bytes are read from and written to the files of the world. Writing replaces a file as a
whole: it holds either its previous contents or the new ones.
-/

namespace Keyfile.Session

def pathText (path : Path) : Text :=
  Path.text path

def readBytes (path : Path) : Session Bytes := do
  ofExcept .file ((← get).files.read path)

/-- The text of a file, with every line break of its source made a line feed. -/
def readText (path : Path) (encoding : Encoding := .utf8) : Session Text := do
  match encoding.decode? (← readBytes path) with
  | some text => return Text.normalizeNewlines text
  | none => throw .undecodable

/-- Makes a directory and those above it; those made before a failure stay. -/
def makeDirectories (path : Path) : Session Unit := do
  let world ← get
  let (files, result) := world.files.makeDirectories path
  set { world with files }
  ofExcept .file result

def replaceFile (replacement : Replacement) : Session Unit := do
  let world ← get
  let (files, result) := replacement.run world.files
  let streams := (replacement.moves world.files).foldl
    (fun streams move => streams.follow world.files move.1 move.2) world.streams
  set { world with files, streams }
  ofExcept .file result
  if replacement.keepsBackup && world.files.contains replacement.path then
    for backup in replacement.path.withEnding? (replacement.backupEnding.getD []) do
      Journal.record (.movedToBackup (pathText replacement.path) (pathText backup.path))

def renameFile (source target : Path) : Session Unit := do
  let world ← get
  let files ← ofExcept .file (world.files.rename source target)
  set { world with files, streams := world.streams.follow world.files source target }

def writeBytes (path : Path) (content : Bytes) (backupEnding : Option Text := none) :
    Session Unit := do
  replaceFile { path, content, backupEnding }
  Journal.record (.bytesWritten content.length (pathText path))

def writeText (path : Path) (text : Text) (encoding : Encoding := .utf8)
    (overwrite : Bool := true) (backupEnding : Option Text := none) : Session Unit := do
  if (← holds path) && !overwrite then throw (.file .alreadyExists)
  match encoding.encode? text with
  | none => throw .unencodable
  | some content =>
    replaceFile { path, content, backupEnding }
    Journal.record (.textWritten (pathText path))

def backupPath (path : Path) (ending : Text) : Session Path :=
  match path.withEnding? ending with
  | some backup => pure backup.path
  | none => throw (.file .nameInvalid)

/-- The path that a variable of the process environment names; none when it is unset or empty. -/
def pathOfVariable? (name : Option Text) : Session (Option Path) := do
  match name with
  | none | some [] => return none
  | some name =>
    match (← get).processEnvironment.get? name with
    | none | some [] => return none
    | some value => return some (← resolve value)

end Keyfile.Session
