import Keyfile.File.Tree
import Keyfile.Journal
import Keyfile.Log.Delivery
import Keyfile.Session.Failure
import Keyfile.Value.Registry

/-!
# Sessions

A session runs in a world: the machine with its process environment and its files, what texts can
name, a provider of configurations and the loggers that keep the journal. An operation of a session
changes the world and ends with a result or a failure; what it did to the world before a failure
stays done.
-/

namespace Keyfile

/-- An address of a network interface. -/
structure InterfaceAddress where
  /-- Whether the address is a short internet address. -/
  isInternet : Bool
  address : Text
  netmask : Option Text
  deriving DecidableEq, Repr

/-- What a machine says about itself. -/
structure Machine where
  node : Text
  hostname : Text
  system : Text
  /-- The number of processors as it is reported, zero when it is unknown. -/
  processors : Int
  temporary : Text
  /-- The program that is running, empty when it is unknown. -/
  program : Text
  interfaces : List (List InterfaceAddress)
  /-- The time, as it stands in front of records. -/
  time : Text
  user : Text
  homes : Record
  deriving DecidableEq, Repr, Inhabited

/-- What a provider is asked with. -/
structure Request where
  settings : Record := []
  cacheFile : Option Text := none
  machineName : Text := []
  executable : Text := []
  version : Text := []
  usage : Text := []
  deriving DecidableEq, Repr, Inhabited

inductive Reply
  | text (text : Text)
  | nothing
  | failure
  deriving DecidableEq, Repr

/-- The surroundings of a session. -/
structure World where
  machine : Machine
  processEnvironment : Record := []
  files : FileTree := {}
  directory : Path := []
  registry : Registry := {}
  identifiers : Nat := 0
  replies : List Reply := []
  /-- What the provider was asked, the latest first. -/
  requests : List Request := []
  loggers : Log.Loggers := []
  /-- The files that the handlers of the loggers hold open. -/
  streams : Log.Streams := {}
  /-- What was written to the console so far. -/
  console : Text := []
  deriving Inhabited

/-- Computations in a world that can fail. -/
abbrev Session := ExceptT Failure (StateM World)

namespace World

/-- The home directory of a user. For the empty name it is that of the user whom the program runs
for, which the process environment can set. It is found only where its own text does not begin with
a tilde. -/
def homeOf (world : World) (user : Text) : Option Text :=
  let machine := world.machine
  let home :=
    if user = [] then
      (world.processEnvironment.get? "HOME".toList).or (machine.homes.get? machine.user)
    else machine.homes.get? user
  match home.map (Text.dropTail (· == '/')) with
  | some [] => some ['/']
  | some ('~' :: _) | none => none
  | some home => some home

def deliver (world : World) (record : Log.Record) : World :=
  let output := Log.Output.deliver ⟨world.files, world.streams, world.console⟩ world.machine.time
    world.loggers record
  { world with files := output.files, streams := output.streams, console := output.console }

end World

def Event.toRecord (event : Event) : Log.Record :=
  ⟨event.channel, event.severity.level, event.message⟩

instance : Journal (StateM World) where
  record event := modify (·.deliver event.toRecord)

namespace Session

def ofExcept {α ε : Type} (failure : ε → Failure) (result : Except ε α) : Session α :=
  ExceptT.mk (pure (result.mapError failure))

def ofLoad {α : Type} (computation : ExceptT LoadError Session α) : Session α := do
  ofExcept .load (← computation.run)

def ofExpansion {α : Type} (computation : ExceptT ExpansionError Session α) : Session α := do
  ofExcept (fun error => .load (.expansion error)) (← computation.run)

/-- The result of a computation, or what it failed with; its effects stay. -/
def attempt {α : Type} (computation : Session α) : Session (Except Failure α) :=
  ExceptT.lift computation.run

/-- The text with a home directory in the place of a first name that begins with a tilde. -/
def expandHome (t : Text) : Session Text := do
  match Path.expandHome (← get).homeOf t with
  | some t => return t
  | none =>
    if (Path.steps t).take 1 |>.all Path.isNameable then throw .homeUnknown
    else throw (.file .nameInvalid)

def resolve (t : Text) : Session Path := do
  let t ← expandHome t
  if Path.isNameable t then return Path.ofText (← get).directory t
  else throw (.file .nameInvalid)

/-- Whether a text names anything that is there, with a home directory in the place of a first name
that begins with a tilde. -/
def isThere (t : Text) : Session Bool := do
  let t ← expandHome t
  let world ← get
  ofExcept .file (world.files.leadsTo world.directory t)

def holds (path : Path) : Session Bool := do
  ofExcept .file ((← get).files.holds path)

end Session

end Keyfile
