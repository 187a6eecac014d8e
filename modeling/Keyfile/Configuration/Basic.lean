import Keyfile.Configuration.Reference
import Keyfile.Directive.Pass
import Keyfile.Text.Quoted

/-!
# Configurations

A configuration is a store of raw values and the macros that were defined on the way. It is looked
at through a scope: the keys below the scope are given without it, and all keys without a scope.
Values are expanded each time they are read, with the macros, the configuration's own keys and an
outside source, in this order. A load that fails leaves the configuration as it was.
-/

namespace Keyfile

/-- A store of raw values with its macros. -/
structure Configuration where
  store : Store := {}
  macros : Table := {}
  deriving DecidableEq, Inhabited

/-- A scope as it is kept: trimmed, without periods at its end, and none when nothing is left. -/
def normalizeScope (scope : Option Text) : Option Text :=
  match scope with
  | none => none
  | some scope =>
    match Text.dropTail (· == '.') (Text.trim scope) with
    | [] => none
    | scope => some scope

namespace Configuration

variable {m : Type → Type} [Monad m]

/-- The configuration after a text is loaded into it: the pass starts without waiting values and
explicit marks and leaves none behind. -/
def load [Journal m] (config : Configuration) (external : Source m) (text : Text) :
    ExceptT LoadError m Configuration := do
  let (store, macros) ← process external text config.macros (.ofItems config.store.items)
  Journal.record
    (.configurationLoaded store.size ((store.size : Int) - config.store.size))
  return { store := .ofItems store.items, macros }

def set (config : Configuration) (scope : Option Text) (key value : Text) : Configuration :=
  { config with store := config.store.set (Key.qualify scope key) value }

def remove (config : Configuration) (scope : Option Text) (key : Text) : Configuration :=
  { config with store := config.store.remove (Key.qualify scope key) }

def define (config : Configuration) (name text : Text) : Configuration :=
  { config with macros := config.macros.insert name text }

def undefine (config : Configuration) (name : Text) : Configuration :=
  { config with macros := config.macros.erase name }

def overlay (config other : Configuration) : Configuration :=
  { config with
    store := other.store.items.entries.foldl (fun store entry => store.set entry.1 entry.2)
      config.store }

def raw? (config : Configuration) (scope : Option Text) (key : Text) : Option Text :=
  config.store.get? (Key.qualify scope key)

def entries (config : Configuration) (scope : Option Text) : List (Text × Text) :=
  config.store.below scope

def keys (config : Configuration) (scope : Option Text) : List Text :=
  (config.entries scope).map (·.1)

/-- The scope of a section of a scope; a name without letters leads back to the whole. -/
def section_ (scope name : Option Text) : Option Text :=
  match name with
  | none => none
  | some name =>
    if name.all fun c => c == ' ' || c == '.' then none
    else normalizeScope (some (Key.qualify scope name))

/-- Where references in values look for values. -/
def source (config : Configuration) (external : Source m) : Source m :=
  .chain [.ofTable config.macros, .ofTable config.store.items, external]

def expand (config : Configuration) (external : Source m) (t : Text) :
    ExceptT ExpansionError m Text :=
  Keyfile.expand (config.source external) t

def get? (config : Configuration) (external : Source m) (scope : Option Text) (key : Text) :
    ExceptT ExpansionError m (Option Text) := do
  match config.raw? scope key with
  | none => return none
  | some raw => return some (← config.expand external raw)

def items (config : Configuration) (external : Source m) (scope : Option Text) :
    ExceptT ExpansionError m (List (Text × Text)) :=
  (config.entries scope).mapM fun entry => do
    return (entry.1, ← config.expand external entry.2)

/-- The expanded values of an array; the default counts when nothing at all has its name. -/
def array (config : Configuration) (external : Source m) (scope : Option Text) (key : Text)
    (default : Option (List Text)) : ExceptT ExpansionError m (List Text) :=
  let full := Key.qualify scope key
  match config.store.array full with
  | [] => return if config.store.covers full then [] else default.getD []
  | values => values.mapM (config.expand external)

def dictionary (config : Configuration) (external : Source m) (scope : Option Text) (key : Text) :
    ExceptT ExpansionError m (List (Text × Text)) :=
  (config.store.dictionary (Key.qualify scope key)).mapM fun entry => do
    return (entry.1, ← config.expand external entry.2)

/-- The full names of the numbered sections of a key. -/
def sectionKeys (config : Configuration) (scope : Option Text) (key : Text) : List Text :=
  let full := Key.qualify scope key
  (List.range (config.store.sectionCount full)).map (Key.indexed full)

/-- A short description: the scope and the number of its keys. -/
def describe (config : Configuration) (scope : Option Text) : Text :=
  let shown := (scope.map Text.quoted).getD "None".toList
  "Config(prefix=".toList ++ shown ++ ", keys=".toList ++
    Text.ofNat (config.entries scope).length ++ [')']

/-- The first part of a key, nothing for a key of a single part. -/
def group (key : Text) : Text :=
  match Text.cutAt '.' key with
  | some (head, _) => head
  | none => []

def groupCounts (keys : List Text) : List (Text × Nat) :=
  let groups := (keys.map group).mergeSort Text.precedes
  groups.eraseDups.map fun name => (name, groups.count name)

/-- An overview: the number of keys of each group. -/
def overview (config : Configuration) (scope : Option Text) : Text :=
  match config.keys scope with
  | [] => "Config with no keys".toList
  | keys =>
    let line (count : Text × Nat) : Text :=
      let name := if count.1 = [] then "<root>".toList else count.1
      '[' :: name ++ "] (".toList ++ Text.ofNat count.2 ++ " keys)".toList
    "Config with ".toList ++ Text.ofNat keys.length ++ " key(s):\n".toList ++
      Text.join ['\n'] ((groupCounts keys).map line)

end Configuration

end Keyfile
