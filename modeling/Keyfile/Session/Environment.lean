import Keyfile.Reference.Expansion
import Keyfile.Session.World
import Keyfile.Text.Blank
import Keyfile.Text.Lines
import Keyfile.Text.Hexadecimal
import Keyfile.Value.Netmask

/-!
# Environments

An environment is a snapshot of the process environment together with built-in variables. The
built-in variables are worked out each time they are asked for, so every new identifier differs
from the one before. Where a built-in variable has no value a variable of the same name counts.
-/

namespace Keyfile

inductive Builtin
  | temporary
  | systemRoot
  | systemDirectory
  | system
  | isWindows
  | isUnix
  | is64Bit
  | machineName
  | hostname
  | serverId
  | processorCount
  | address
  | netmask
  | subnet
  | programDirectory
  | dataDirectory
  | isDebug
  | isRelease
  | identifier
  deriving DecidableEq, Repr

namespace Builtin

def named : List (Text × Builtin) :=
  [("temp".toList, temporary), ("tmp".toList, temporary), ("systemroot".toList, systemRoot),
    ("systemdirectory".toList, systemDirectory), ("os".toList, system),
    ("os.windows".toList, isWindows), ("os.unix".toList, isUnix), ("is64bit".toList, is64Bit),
    ("machinename".toList, machineName), ("hostname".toList, hostname),
    ("serverid".toList, serverId), ("processorcount".toList, processorCount),
    ("ip-address".toList, address), ("ip-mask".toList, netmask), ("ip-subnet".toList, subnet),
    ("apppath".toList, programDirectory), ("programdatapath".toList, dataDirectory),
    ("isdebug".toList, isDebug), ("isrelease".toList, isRelease), ("guid".toList, identifier)]

def ofName? (name : Text) : Option Builtin :=
  named.lookup name

end Builtin

/-- The address and the netmask of the first interface that leads out of the machine. -/
def networkOf : List InterfaceAddress → Except Failure (Text × Text)
  | [] => .ok ("127.0.0.1".toList, "255.0.0.0".toList)
  | candidate :: rest =>
    if !candidate.isInternet || candidate.address = [] then networkOf rest
    else
      match Address.ofText? candidate.address with
      | none => .error .addressMalformed
      | some address =>
        if address.isLoopback then networkOf rest
        else
          match candidate.netmask with
          | none | some [] => .ok (candidate.address, "255.255.255.255".toList)
          | some netmask => .ok (candidate.address, netmask)

def network : Session (Text × Text) := do
  Session.ofExcept id (networkOf (← get).machine.interfaces.flatten)

def subnet : Session Text := do
  let (address, netmask) ← network
  if netmask.contains '/' then throw .netmaskDivided
  match Netmask.ofText? netmask with
  | some ones => return address ++ '/' :: Text.ofNat ones
  | none => throw .netmaskMalformed

/-- The text of a new identifier, which counts the identifiers made so far. -/
def newIdentifier : Session Text := do
  let count := (← get).identifiers + 1
  modify fun world => { world with identifiers := count }
  return "00000000-0000-4000-8000-".toList ++ Text.hexDigits 12 count

/-- The directory of the program, the working directory when the program is unknown. -/
def programDirectory : Session Text := do
  let world ← get
  if world.machine.program = [] then return Path.text world.directory
  else if !Path.isNameable world.machine.program then throw (.file .nameInvalid)
  else return Path.text (Path.ofText world.directory world.machine.program).parent

/-- Variables and the name of the server. -/
structure Environment where
  /-- The variables; names have no case. -/
  table : Table := {}
  serverId : Option Text := none
  deriving DecidableEq, Inhabited

namespace Environment

/-- The variables that lines of the form `name = value` define; comments and lines without a name
define none. -/
def definitions (t : Text) : List (Text × Text) :=
  (Text.lines t).filterMap fun line =>
    let line := Text.trim line
    if ['/', '/'].isPrefixOf line then none
    else
      match Text.cutAt '=' line with
      | none => none
      | some (name, value) =>
        if Text.trim name = [] then none else some (Text.trim name, Text.trim value)

def set (environment : Environment) (name value : Text) : Environment :=
  { environment with table := environment.table.insert name value }

def define (environment : Environment) (t : Text) : Environment :=
  (definitions t).foldl (fun environment pair => environment.set pair.1 pair.2) environment

def reload (environment : Environment) (pairs : List (Text × Text)) : Environment :=
  { environment with table := .ofPairs pairs }

def ofPairs (pairs : List (Text × Text)) : Environment :=
  { table := .ofPairs pairs }

def ofProcess : Session Environment := do
  return ofPairs (← get).processEnvironment

/-- The name of the server, the machine's name when none is set. -/
def server (environment : Environment) : Session Text := do
  match environment.serverId with
  | none | some [] => return (← get).machine.node
  | some name => return name

def builtin (environment : Environment) : Builtin → Session (Option Text)
  | .temporary => return (← get).machine.temporary
  | .systemRoot => return "/".toList
  | .systemDirectory => return "/usr/bin".toList
  | .system => return (← get).machine.system
  | .isWindows => return none
  | .isUnix => return "1".toList
  | .is64Bit => return "1".toList
  | .machineName => return (← get).machine.node
  | .hostname => return (← get).machine.hostname
  | .serverId => return ← environment.server
  | .processorCount => do
    let processors := (← get).machine.processors
    return Text.ofInt (if processors = 0 then 1 else processors)
  | .address => return (← network).1
  | .netmask => return (← network).2
  | .subnet => return ← subnet
  | .programDirectory => return ← programDirectory
  | .dataDirectory => return "/var/lib".toList
  | .isDebug => return "true".toList
  | .isRelease => return "false".toList
  | .identifier => return ← newIdentifier

def get? (environment : Environment) (name : Text) : Session (Option Text) := do
  match Builtin.ofName? (Text.lower name) with
  | none => return environment.table.get? name
  | some builtin =>
    match ← environment.builtin builtin with
    | some value => return some value
    | none => return environment.table.get? name

def source (environment : Environment) : Source Session where
  names := Builtin.named.map (·.1) ++ environment.table.keys
  ask := environment.get?

def expand (environment : Environment) (t : Text) : Session Text :=
  Session.ofExpansion (Keyfile.expand environment.source t)

/-- A short description: the number of variables. -/
def describe (environment : Environment) : Text :=
  "EnvironmentVars(variables=".toList ++ Text.ofNat environment.table.size ++ [')']

end Environment

end Keyfile
