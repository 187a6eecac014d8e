import Keyfile.Command.Invocation
import Keyfile.Command.Listing
import Keyfile.Log.Configuration
import Keyfile.Template.Definition
import Keyfile.Template.Installation
import Keyfile.Configuration.Surroundings

/-!
# Executing commands

An invocation sets up the journal and carries out its command, which ends with an exit code and a
text for the output. A refused configuration ends it with the code two, any other failure and a
missing key or definition with the code one.
-/

namespace Keyfile.Command

structure Outcome where
  code : Nat
  output : Text
  deriving DecidableEq, Repr

def Outcome.shows (line : Text) : Outcome :=
  ⟨0, line ++ ['\n']⟩

/-- The tag and its text in an argument with an equals sign between them. -/
def tagText (argument : Text) : Except Failure (Text × Text) :=
  match Text.cutAt '=' argument with
  | none => .error (.refusal (.tagMalformed argument))
  | some (tag, text) =>
    match Text.trim tag with
    | [] => .error (.refusal (.tagMalformed argument))
    | tag => .ok (tag, text)

def configurationOf (file : Text) : Session Surrounded := do
  let environment ← Environment.ofProcess
  Surrounded.loadFile { environment } (← Session.resolve file)

/-- The scope that a command is given, none when it is empty. -/
def scopeOf (name : Option Text) : Option Text :=
  match name with
  | none | some [] => none
  | some name => Configuration.section_ none (some name)

/-- The default that an argument gives; one without a word is a list, which stands for no kind. -/
def defaultOf : Option Argument → Value
  | none => .absent
  | some none => .list
  | some (some text) => .text text

def execute : Command → Session Outcome
  | dump file scope asJson => do
    let config ← configurationOf file
    let entries := Record.ofPairs (← config.items (scopeOf scope))
    return .shows (if asJson then jsonListing entries else plainListing entries)
  | get file key default => do
    let config ← configurationOf file
    match key with
    | none => throw .wordMissing
    | some key =>
      match ← config.getLike none key (defaultOf default) with
      | .text value => return .shows value
      | _ =>
        Journal.record (.keyMissing key)
        return ⟨1, []⟩
  | render file tags => do
    let path ← Session.resolve file
    let texts ← Session.ofExcept id (tags.mapM tagText)
    let count ← Template.install path .utf8 (.ofPairs (Record.ofPairs texts))
    return .shows ("Rewrote ".toList ++ Text.ofNat count ++ " line(s)".toList)
  | restore file => do
    let restored ← Template.restore (← Session.resolve file)
    return .shows (if restored then "Restored".toList else "Nothing to restore".toList)
  | define file name text => do
    -- no line defines the empty name
    if ← Session.editDefinitions file (name.getD []) text then return ⟨0, []⟩
    Journal.record (.definitionMissing (name.getD noWord) file)
    return ⟨1, []⟩

/-- Sets up the journal and carries out the command. A failure to set up the journal is not caught;
a failure of the command is recorded. -/
def Invocation.execute (invocation : Invocation) : Session Outcome := do
  let _ ← Log.configure { consoleLevel := .name invocation.level, file := invocation.logFile }
  match ← Session.attempt invocation.command.execute with
  | .ok outcome => return outcome
  | .error failure =>
    if failure.isRefusal then
      Journal.record (.commandRefused failure.message)
      return ⟨2, []⟩
    else
      Journal.record (.commandFailed failure.message)
      return ⟨1, []⟩

end Keyfile.Command
