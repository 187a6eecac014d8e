import Keyfile.Configuration.Basic

/-!
# Trees of a source text

The statements of a source text make a sequence of trees: an entry or a definition is a leaf, and a
conditional, a switch or a section holds the trees of its bodies. The trees are carried out by
recursion: a condition is tested once and one of its two bodies carried out, the value of a switch
is worked out once and one of its bodies carried out at most, and the body of a section is carried
out in the scope that its name makes. No open block is kept anywhere.
-/

namespace Keyfile

/-- A statement of a source text together with the bodies that belong to it. -/
inductive Tree
  | entry (key value : Text)
  | define (line : Nat) (argument : Text)
  | set (line : Nat) (argument : Text)
  | undefine (line : Nat) (argument : Text)
  /-- Two bodies, the second of them empty when none is written. -/
  | conditional (line : Nat) (argument : Text) (first second : List Tree)
  /-- The bodies under their labels, and the body for a value without a label. -/
  | choice (argument : Text) (labelled : List (Text × List Tree)) (other : List Tree)
  | scope (name : Text) (body : List Tree)

/-- A pass over a configuration in a scope, without open blocks. -/
def Configuration.pass (config : Configuration) (scope : Option Text) : Pass :=
  { scope, macros := config.macros, store := config.store }

/-- What a pass has made so far. -/
def Pass.configuration (pass : Pass) : Configuration :=
  ⟨pass.store, pass.macros⟩

namespace Tree

/-- A directive that ends a body, with the trees of the body that follows it. -/
structure Boundary where
  line : Nat
  word : Directive
  argument : Text
  body : List Tree

/-- The bodies of a switch from a boundary on: those under labels, the one for a value without a
label, and what follows the end of the switch. -/
def choices? : List Boundary → Option (List (Text × List Tree) × List Tree × List Tree × List Boundary)
  | ⟨_, .switchCase, label, body⟩ :: rest =>
    (choices? rest).map fun parts => ((label, body) :: parts.1, parts.2)
  | ⟨_, .switchDefault, _, body⟩ :: ⟨_, .switchEnd, _, after⟩ :: rest => some ([], body, after, rest)
  | ⟨_, .switchEnd, _, after⟩ :: rest => some ([], [], after, rest)
  | _ => none

/-- Puts a directive in front of the trees and boundaries that follow it. Trees before the first
case of a switch belong to no body. -/
def direct? (line : Nat) (argument : Text) (trees : List Tree) (boundaries : List Boundary) :
    Directive → Option (List Tree × List Boundary)
  | .define => some (.define line argument :: trees, boundaries)
  | .set => some (.set line argument :: trees, boundaries)
  | .undefine => some (.undefine line argument :: trees, boundaries)
  | .ifBegin =>
    match boundaries with
    | ⟨_, .ifEnd, _, after⟩ :: rest => some (.conditional line argument trees [] :: after, rest)
    | ⟨_, .ifElse, _, second⟩ :: ⟨_, .ifEnd, _, after⟩ :: rest =>
      some (.conditional line argument trees second :: after, rest)
    | _ => none
  | .switchBegin =>
    if argument = [] then none
    else
      (choices? boundaries).map fun (labelled, other, after, rest) =>
        (.choice argument labelled other :: after, rest)
  | .sectionBegin =>
    if argument = [] || Text.includes Key.autoIndex argument then none
    else
      match boundaries with
      | ⟨_, .sectionEnd, _, after⟩ :: rest => some (.scope argument trees :: after, rest)
      | _ => none
  | word => some ([], ⟨line, word, argument, trees⟩ :: boundaries)

/-- The trees up to the first boundary that belongs to a block opened before, and what follows. -/
def read? : List (Nat × Statement) → Option (List Tree × List Boundary)
  | [] => some ([], [])
  | (line, statement) :: rest => do
    let (trees, boundaries) ← read? rest
    match statement with
    | .entry key value => some (.entry key value :: trees, boundaries)
    | .directive word argument => direct? line argument trees boundaries word
    | .unknown _ => none

/-- The trees of a source text, if its statements make any. -/
def ofText? (text : Text) : Option (List Tree) :=
  match read? (statements text) with
  | some (trees, []) => some trees
  | _ => none

variable {m : Type → Type} [Monad m] [Journal m]

mutual

/-- The configuration after a tree is carried out in a scope. -/
def apply (external : Source m) (scope : Option Text) (config : Configuration) :
    Tree → ExceptT LoadError m Configuration
  | .entry key value =>
    pure (if key = [] then config else ((config.pass scope).enter key value).configuration)
  | .define line argument => do
    let (name, text) ← Pass.checked line (Pass.definition .define argument)
    return (← (config.pass scope).define name text).configuration
  | .set line argument => do
    let (name, text) ← Pass.checked line (Pass.definition .set argument)
    let value ← (config.pass scope).expand external text
    return (← (config.pass scope).define name value).configuration
  | .undefine line argument => do
    let (name, _) ← Pass.checked line (Pass.definition .undefine argument)
    return (← (config.pass scope).undefine name).configuration
  | .conditional line argument first second => do
    if ← (config.pass scope).condition external line argument then
      applyAll external scope config first
    else applyAll external scope config second
  | .choice argument labelled other => do
    let value ← (config.pass scope).switchValue external argument
    applyChoice external scope config value (applyAll external scope config other) labelled
  | .scope name body => applyAll external (Key.join scope (some name)) config body

/-- The configuration after trees are carried out from first to last. -/
def applyAll (external : Source m) (scope : Option Text) (config : Configuration) :
    List Tree → ExceptT LoadError m Configuration
  | [] => pure config
  | tree :: rest => do applyAll external scope (← apply external scope config tree) rest

/-- The configuration after the first body whose label is the value is carried out; `other` is
what happens when there is none. -/
def applyChoice (external : Source m) (scope : Option Text) (config : Configuration)
    (value : Text) (other : ExceptT LoadError m Configuration) :
    List (Text × List Tree) → ExceptT LoadError m Configuration
  | [] => other
  | (label, body) :: rest =>
    if sameName label value then applyAll external scope config body
    else applyChoice external scope config value other rest

end

/-- Carries out the trees of a source text on macros and a store. -/
def process (external : Source m) (text : Text) (trees : List Tree) (macros : Table)
    (store : Store) : ExceptT LoadError m (Store × Table) := do
  let config ← applyAll external none ⟨store, macros⟩ trees
  for key in config.store.overridden do
    Journal.record (.valueOverridden key)
  Journal.record (.textProcessed (Text.lines text).length config.store.admitted.length)
  return (config.store.merge, config.macros)

end Tree

end Keyfile
