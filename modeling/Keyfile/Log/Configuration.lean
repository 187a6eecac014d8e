import Keyfile.Session.Files

/-!
# Configuring loggers

The first time a logger is asked for it gets a handler for the console. Configuring sets the level of
that handler and can add one handler for each file. The logger itself passes on what its most
generous present request needs.
-/

namespace Keyfile.Log

/-- How a logger is to be configured. -/
structure Options where
  name : Text := "confpp".toList
  consoleLevel : LevelChoice := .name "WARNING".toList
  file : Option Text := none
  /-- The level of the file's handler, that of the console without one. -/
  fileLevel : Option LevelChoice := none
  /-- How the file is opened; a file with a limit is always appended to. -/
  mode : Text := ['a']
  rotates : Bool := false
  limit : Int := 1000000
  backups : Int := 3
  layout : Layout := .full
  propagates : Bool := false
  deriving DecidableEq, Repr

def resolveLevel (parameter : Text) (choice : LevelChoice) : Except Failure Int :=
  choice.resolve.mapError (.levelUnknown parameter)

/-- The logger of a name, with a handler for the console if it had no handler. -/
def obtain (name : Text) : Session Logger := do
  let world ← get
  let logger := (world.loggers.find? name).getD { name }
  let logger :=
    if logger.handlers = [] then
      { logger with handlers := [{ target := .console, layout := .short }], level := warningLevel }
    else logger
  set { world with loggers := world.loggers.put logger }
  return logger

/-- A handler of the console with a level and a layout; a handler of a file stays as it is. -/
def configureConsole (level : Int) (layout : Layout) (handler : Handler) : Handler :=
  match handler.target with
  | .console => { handler with level, layout }
  | _ => handler

def openStream (path : Path) (mode : Mode) : Session Nat := do
  let files ← Session.ofExcept .file (mode.openFile (← get).files path)
  let world ← get
  let (streams, number) := world.streams.add ⟨.path path, mode, 0⟩
  set { world with files, streams }
  return number

def Options.openMode (options : Options) : Except Failure Mode :=
  if options.rotates && 0 < options.limit then .ok .append
  else
    match Mode.ofText? options.mode with
    | some mode => .ok mode
    | none => .error .modeInvalid

def withFile (options : Options) (level : Int) (file : Text) (logger : Logger) :
    Session Logger := do
  let path ← Session.resolve file
  if logger.handlers.any (·.path? == some path) then return logger
  Session.makeDirectories path.parent
  let mode ← Session.ofExcept id options.openMode
  let stream ← openStream path mode
  let target :=
    if options.rotates then .rotating path mode options.limit options.backups stream
    else .file path mode stream
  return { logger with handlers := logger.handlers ++ [{ target, level, layout := options.layout }] }

def configure (options : Options) : Session Logger := do
  let consoleLevel ←
    Session.ofExcept id (resolveLevel "console_level".toList options.consoleLevel)
  let fileLevel ←
    match options.fileLevel with
    | none => pure consoleLevel
    | some choice => Session.ofExcept id (resolveLevel "file_level".toList choice)
  let file :=
    match options.file with
    | some [] => none
    | file => file
  let logger ← obtain options.name
  let logger := { logger with
    level := if file.isSome then min consoleLevel fileLevel else consoleLevel
    propagates := options.propagates
    handlers := logger.handlers.map (configureConsole consoleLevel options.layout) }
  modify fun world => { world with loggers := world.loggers.put logger }
  match file with
  | none => return logger
  | some file =>
    let logger ← withFile options fileLevel file logger
    modify fun world => { world with loggers := world.loggers.put logger }
    return logger

end Keyfile.Log
