import Keyfile.Command.Execution
import Keyfile.Log.Timestamp

/-!
# The program

What a command line can touch is read into a world: the machine, the process environment, and the
files that its words name with their backups. The invocation is carried out there, and what it did
to the files is carried over to the real ones afterwards.
-/

namespace Keyfile.Main

def contents (file : String) : IO Text := do
  try
    let bytes ← IO.FS.readBinFile file
    return Encoding.utf8.decodeForgiving bytes.toList
  catch _ => return []

def processEnvironment : IO Record := do
  let entries := Text.splitAt (Char.ofNat 0) (← contents "/proc/self/environ")
  return .ofPairs (entries.filterMap (Text.cutAt '='))

def time : IO Text := do
  let clock ← ((← IO.currentDir) / "/proc/self/environ").metadata
  return Log.timeText clock.modified.sec (clock.modified.nsec.toNat / 1000000)

def accounts : IO (List (List Text)) := do
  return (Text.lines (← contents "/etc/passwd")).map (Text.splitAt ':')

def userNumber : IO (Option Text) := do
  let line? := (Text.lines (← contents "/proc/self/status")).find? ("Uid:".toList.isPrefixOf ·)
  return line?.bind fun line => (Text.splitAt '\t' line)[1]?

def homeOfAccount? : List Text → Option (Text × Text)
  | name :: _ :: _ :: _ :: _ :: home :: _ => some (name, home)
  | _ => none

/-- What the machine says about itself; its network interfaces are not looked at. -/
def machine (environment : Record) : IO Machine := do
  let name := Text.trim (← contents "/proc/sys/kernel/hostname")
  let processors := (Text.lines (← contents "/proc/cpuinfo")).filter fun line =>
    "processor".toList.isPrefixOf line
  let accounts ← accounts
  let number ← userNumber
  let account? := accounts.find? fun fields => number.isSome && fields[2]? == number
  return {
    node := name
    hostname := name
    system := Text.trim (← contents "/proc/sys/kernel/ostype")
    processors := processors.length
    temporary := (environment.get? "TMPDIR".toList).getD "/tmp".toList
    program := (← IO.appPath).toString.toList
    interfaces := []
    time := ← time
    user := (account?.bind List.head?).getD []
    homes := .ofPairs (accounts.filterMap homeOfAccount?) }

def observe (files : FileTree) (path : Path) : IO FileTree := do
  let place := (← IO.currentDir) / String.ofList (Path.text path)
  if ← place.isDir then return files.put path .directory
  else if ← place.pathExists then
    return files.put path (.file (← IO.FS.readBinFile place).toList)
  else return files

def pathsOf (world : World) (word : Text) : List Path :=
  let names := word :: ((Text.cutAt '=' word).map (·.2)).toList
  names.flatMap fun name =>
    let path := Path.ofText world.directory ((Path.expandHome world.homeOf name).getD name)
    path.ancestors ++ path :: ((path.withEnding? Template.backupEnding).map (·.path)).toList

def observed (words : List Text) : IO World := do
  let processEnvironment ← processEnvironment
  let directory := Path.ofText [] (← IO.currentDir).toString.toList
  let world : World := {
    machine := ← machine processEnvironment
    processEnvironment
    directory }
  let files ← (words.flatMap (pathsOf world)).eraseDups.foldlM observe {}
  return { world with files }

def commit (before after : FileTree) : IO Unit := do
  for (path, node) in after.nodes do
    if before.get? path != some node then
      let place := String.ofList (Path.text path)
      match node with
      | .directory => IO.FS.createDirAll place
      | .file content => IO.FS.writeBinFile place ⟨content.toArray⟩
  for (path, _) in before.files do
    if !after.contains path then IO.FS.removeFile (String.ofList (Path.text path))

def usage : String :=
  String.intercalate "\n" [
    "usage: keyfile [--log-level LEVEL] [--log-file FILE] COMMAND ...",
    "  dump FILE [--section NAME] [--json]",
    "  get FILE KEY [--default TEXT]",
    "  rewrite FILE TAG=TEXT ...",
    "  restore FILE",
    "  edit-macro FILE NAME VALUE",
    ""]

def run (words : List Text) : IO UInt32 := do
  match Command.Invocation.ofWords words with
  | .error .help => IO.print usage; return 0
  | .error .mistake => IO.eprint usage; return 2
  | .ok invocation =>
    let world ← observed words
    let (result, after) := invocation.execute.run world
    commit world.files after.files
    IO.eprint (String.ofList after.console)
    match result with
    | .ok outcome => IO.print (String.ofList outcome.output); return UInt32.ofNat outcome.code
    | .error failure => IO.eprintln (String.ofList failure.message); return 1

end Keyfile.Main

/-- The program: its words come without its name. -/
def main (words : List String) : IO UInt32 :=
  Keyfile.Main.run (words.map (·.toList))
