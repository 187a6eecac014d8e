import Keyfile.Provider.Fetching

/-!
# Contexts

A context owns the configuration of an application. It is built when it is first asked for: from the
text or the file that the context was given, or from what the provider named there answers, with
the entries of an override file written over it. Until something is changed it stays the same. A
failed build leaves the context without a configuration.
-/

namespace Keyfile

/-- The owner of an application's configuration. -/
structure Context where
  /-- The source text, which comes before the file. -/
  text : Option Text := none
  path : Option Text := none
  overrideVariable : Option Text := some "CONFPP_OVERRIDE".toList
  usesEnvironment : Bool := true
  /-- The environment of all configurations; without one each takes its own snapshot. -/
  environment : Option Environment := none
  loaded : Option Surrounded := none
  builds : Nat := 0
  deriving Inhabited

namespace Context

def setText (context : Context) (text : Option Text) : Context :=
  { context with text, path := none, loaded := none }

/-- The context with a text added to its source after a line break. -/
def append (context : Context) (text : Text) : Context :=
  let whole :=
    match context.text with
    | none => text
    | some before => before ++ ['\r', '\n'] ++ text
  { context with text := some whole, loaded := none }

def setPath (context : Context) (path : Option Text) : Context :=
  { context with path, text := none, loaded := none }

/-- The context without its configuration, which will be built again. -/
def clear (context : Context) : Context :=
  { context with loaded := none }

def sourceText (context : Context) : Session Text := do
  match context.text, context.path with
  | some text, _ => return text
  | none, none => return []
  | none, some file =>
    let world ← get
    if ← Session.ofExcept .file (world.files.leadsTo world.directory file) then
      Session.readText (← Session.resolve file)
    else return []

def fresh (context : Context) : Session Surrounded := do
  let environment ←
    match context.environment with
    | some environment => pure environment
    | none => Environment.ofProcess
  return { environment, usesEnvironment := context.usesEnvironment }

def build (context : Context) (text : Text) : Session Surrounded := do
  (← context.fresh).load text

/-- The entries of the override file, none when it cannot be read as a configuration. -/
def override? (context : Context) : Session (Option Configuration) := do
  match ← Session.pathOfVariable? context.overrideVariable with
  | none => return none
  | some path =>
    match ← Session.attempt (do (← context.fresh).loadFile path) with
    | .ok layer => return some layer.config
    | .error failure =>
      if failure.isOfFiles || failure.isRefusal then return none else throw failure

/-- The configuration as the sources, the provider and the override file make it. -/
def assemble (context : Context) : Session Surrounded := do
  let own ← context.build (← context.sourceText)
  let base ←
    match ← Provider.customText own with
    | some text => context.build text
    | none => pure own
  match ← context.override? with
  | some layer => return { base with config := base.config.overlay layer }
  | none => return base

/-- The configuration of the context, built if it has to be, and the context that holds it. -/
def configuration (context : Context) : Session (Surrounded × Context) := do
  match context.loaded with
  | some loaded => return (loaded, context)
  | none =>
    let loaded ← context.assemble
    return (loaded, { context with loaded := some loaded, builds := context.builds + 1 })

/-- The context with its configuration changed; an environment of the context changes with it. -/
def update (context : Context) (changed : Surrounded) : Context :=
  { context with
    loaded := some changed
    environment := context.environment.map fun _ => changed.environment }

/-- The file to save to: the given one, or that of the context. -/
def destination (context : Context) (file : Option Text) : Except Failure Text :=
  match file, context.path with
  | some file, _ | none, some file => .ok file
  | none, none => .error (.refusal .destinationMissing)

def describe (context : Context) : Text :=
  let state := if context.loaded.isSome then "loaded" else "not loaded"
  "ConfigContext(".toList ++ state.toList ++ [')']

end Context

end Keyfile
