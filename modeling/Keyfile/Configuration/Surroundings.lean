import Keyfile.Configuration.Saved
import Keyfile.Session.Environment
import Keyfile.Session.Files
import Keyfile.Value.Kind

/-!
# Configurations in their surroundings

In a session a configuration is read with the variables of an environment, which can be switched
off. Loading, reading and saving come with the failures and the effects of the session.
-/

namespace Keyfile

/-- A configuration with the environment it is read in. -/
structure Surrounded where
  config : Configuration := {}
  environment : Environment := {}
  /-- Whether the environment has a say in the values. -/
  usesEnvironment : Bool := true
  deriving DecidableEq, Inhabited

namespace Surrounded

def external (surrounded : Surrounded) : Source Session :=
  if surrounded.usesEnvironment then surrounded.environment.source else .silent

def load (surrounded : Surrounded) (text : Text) : Session Surrounded := do
  return { surrounded with
    config := ← Session.ofLoad (surrounded.config.load surrounded.external text) }

def loadFile (surrounded : Surrounded) (path : Path) (encoding : Encoding := .utf8) :
    Session Surrounded := do
  let loaded ← surrounded.load (← Session.readText path encoding)
  Journal.record (.fileLoaded (Session.pathText path))
  return loaded

def expand (surrounded : Surrounded) (t : Text) : Session Text :=
  Session.ofExpansion (surrounded.config.expand surrounded.external t)

def get? (surrounded : Surrounded) (scope : Option Text) (key : Text) : Session (Option Text) :=
  Session.ofExpansion (surrounded.config.get? surrounded.external scope key)

def items (surrounded : Surrounded) (scope : Option Text) : Session (List (Text × Text)) :=
  Session.ofExpansion (surrounded.config.items surrounded.external scope)

/-- The value of a key of a scope, read as a value of a kind. -/
def getAs (surrounded : Surrounded) (scope : Option Text) (kind : Kind) (key : Text)
    (default : Value) : Session Value := do
  let text ← surrounded.get? scope key
  Session.ofExcept .value (kind.parse (← get).registry text default)

/-- The value of a key of a scope, read as a value of the default's kind. -/
def getLike (surrounded : Surrounded) (scope : Option Text) (key : Text) (default : Value) :
    Session Value := do
  let text ← surrounded.get? scope key
  Session.ofExcept .value (parseAs (← get).registry text default)

/-- The value of a text: a plain text is read as it is, a reference leads to a key of the scope.
A malformed reference counts as a missing text. -/
def follow (surrounded : Surrounded) (scope : Option Text) (text : Option Text)
    (default : Value) : Session Value := do
  match text with
  | none => return default
  | some text =>
    let registry := (← get).registry
    match KeyReference.read text with
    | .error _ => return default
    | .ok none => Session.ofExcept .value (parseAs registry (some text) default)
    | .ok (some reference) =>
      let fallback ←
        match reference.default with
        | none => pure default
        | some text => Session.ofExcept .value (parseAs registry (some text) default)
      surrounded.getLike scope reference.key fallback

/-- The configuration with a value stored under a key of a scope; no value removes the key. -/
def store (surrounded : Surrounded) (scope : Option Text) (key : Text) (value : Value) :
    Surrounded :=
  match value with
  | .absent => { surrounded with config := surrounded.config.remove scope key }
  | value => { surrounded with config := surrounded.config.set scope key value.stored }

def save (surrounded : Surrounded) (scope : Option Text) (path : Path) : Session Unit :=
  Session.writeText path (surrounded.config.saved scope)

end Surrounded

end Keyfile
