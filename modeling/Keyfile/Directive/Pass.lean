import Keyfile.Directive.Block
import Keyfile.Directive.Statement
import Keyfile.Journal
import Keyfile.LoadError
import Keyfile.Store

/-!
# The pass over a source text

A source text is carried out in one forward pass over its statements. The state of a pass is the
stack of open blocks, the scope of the open sections, the macros and the store. Structural rules
hold in every branch; definitions, conditions, switch values and entries take effect only where the
text is carried out. At the end no block may be open, and the values that wait for their positions
are merged into the store.
-/

namespace Keyfile

/-- The state of a pass. -/
structure Pass where
  blocks : List Block := []
  scope : Option Text := none
  macros : Table := {}
  store : Store := {}
  deriving DecidableEq, Inhabited

namespace Pass

variable {m : Type → Type} [Monad m] [Journal m]

def enabled (pass : Pass) : Bool :=
  match pass.blocks with
  | [] => true
  | block :: _ => block.enabled

def push (pass : Pass) (block : Block) : Pass :=
  { pass with blocks := block :: pass.blocks }

/-- Where references look for values: the macros, the store, then the outside. -/
def source (pass : Pass) (external : Source m) : Source m :=
  .chain [.ofTable pass.macros, .ofTable pass.store.items, external]

/-- Where a bare switch name looks for its value: the store, the macros, then the outside. -/
def switchSource (pass : Pass) (external : Source m) : Source m :=
  .chain [.ofTable pass.store.items, .ofTable pass.macros, external]

def expand (pass : Pass) (external : Source m) (t : Text) : ExceptT LoadError m Text :=
  ExceptT.adapt .expansion (Keyfile.expand (pass.source external) t)

/-- The pass with an entry in its store, under its full key or waiting for a position. -/
def enter (pass : Pass) (key value : Text) : Pass :=
  let full := Key.qualify pass.scope key
  let store :=
    if Key.autoIndex.isSuffixOf full then
      pass.store.append (full.take (full.length - Key.autoIndex.length)) value
    else pass.store.set full value
  { pass with store }

/-- Whether a name cannot be defined. -/
def isReserved (name : Text) : Bool :=
  let low := Text.lower name
  low == "true".toList || low == "false".toList

def definition (directive : Directive) (argument : Text) : Except FormatCause (Text × Text) :=
  match Text.firstWord argument with
  | none => .error (.nameMissing directive.word)
  | some (name, text) =>
    if isReserved name then .error (.nameReserved directive.word name) else .ok (name, text)

def define (pass : Pass) (name text : Text) : ExceptT LoadError m Pass := do
  Journal.record (.macroDefined name)
  return { pass with macros := pass.macros.insert name text }

def undefine (pass : Pass) (name : Text) : ExceptT LoadError m Pass := do
  if pass.macros.contains name then Journal.record (.macroRemoved name)
  return { pass with macros := pass.macros.erase name }

/-- Whether a condition holds; a name holds when a macro or the outside knows it. -/
def condition (pass : Pass) (external : Source m) (line : Nat) (argument : Text) :
    ExceptT LoadError m Bool := do
  let (negated, name) :=
    match argument with
    | '!' :: rest => (true, Text.trim rest)
    | _ => (false, argument)
  if name = [] then throw (.at_ line .conditionMissing)
  let word := Text.lower name
  let holds ←
    if word = "true".toList then pure true
    else if word = "false".toList then pure false
    else if pass.macros.contains name then pure true
    else return (← external.ask name).isSome != negated
  return holds != negated

/-- Opens a conditional; its condition is looked at only where the text is carried out. -/
def beginIf (pass : Pass) (external : Source m) (line : Nat) (argument : Text) :
    ExceptT LoadError m Pass := do
  let outerEnabled := pass.enabled
  let condition ← if outerEnabled then pass.condition external line argument else pure false
  return pass.push (.ifBlock { outerEnabled, condition, line })

def beginElse (pass : Pass) : Except FormatCause Pass :=
  match pass.blocks with
  | .ifBlock block :: rest =>
    if block.inElse then .error .elseRepeated
    else .ok { pass with blocks := .ifBlock { block with inElse := true } :: rest }
  | _ => .error (.openerMissing Directive.ifElse.word Directive.ifBegin.word)

def endIf (pass : Pass) : Except FormatCause Pass :=
  match pass.blocks with
  | .ifBlock _ :: rest => .ok { pass with blocks := rest }
  | _ => .error (.openerMissing Directive.ifEnd.word Directive.ifBegin.word)

/-- What a switch compares its cases with: an expression with references is expanded, any other is
the name of a value. -/
def switchValue (pass : Pass) (external : Source m) (expression : Text) :
    ExceptT LoadError m Text := do
  if hasReferences expression then pass.expand external expression
  else
    match ← (pass.switchSource external).ask expression with
    | some value => pass.expand external value
    | none => return []

/-- Opens a switch; its value is looked up only where the text is carried out. -/
def beginSwitch (pass : Pass) (external : Source m) (line : Nat) (argument : Text) :
    ExceptT LoadError m Pass := do
  if argument = [] then throw (.at_ line .expressionMissing)
  let outerEnabled := pass.enabled
  let value ← if outerEnabled then pass.switchValue external argument else pure []
  return pass.push (.switchBlock { outerEnabled, value, line })

/-- Turns to a case of the innermost switch, which is carried out when it is the first to match. -/
def beginCase (pass : Pass) (label : Text) : Except FormatCause Pass :=
  match pass.blocks with
  | .switchBlock block :: rest =>
    if block.hasDefault then .error .caseAfterDefault
    else
      let hit := block.outerEnabled && !block.matched && sameName label block.value
      let block := { block with enabled := hit, matched := block.matched || hit }
      .ok { pass with blocks := .switchBlock block :: rest }
  | _ => .error (.openerMissing Directive.switchCase.word Directive.switchBegin.word)

/-- Turns to the default of the innermost switch, which is carried out when no case matched. -/
def beginDefault (pass : Pass) : Except FormatCause Pass :=
  match pass.blocks with
  | .switchBlock block :: rest =>
    if block.hasDefault then .error .defaultRepeated
    else
      let block :=
        { block with hasDefault := true, enabled := block.outerEnabled && !block.matched }
      .ok { pass with blocks := .switchBlock block :: rest }
  | _ => .error (.openerMissing Directive.switchDefault.word Directive.switchBegin.word)

def endSwitch (pass : Pass) : Except FormatCause Pass :=
  match pass.blocks with
  | .switchBlock _ :: rest => .ok { pass with blocks := rest }
  | _ => .error (.openerMissing Directive.switchEnd.word Directive.switchBegin.word)

/-- Opens a section, whose name joins the scope whether or not the text is carried out. -/
def beginSection (pass : Pass) (line : Nat) (name : Text) : Except FormatCause Pass :=
  if name = [] then .error .sectionNameMissing
  else if Text.includes Key.autoIndex name then .error (.sectionNameIndexed name)
  else
    let block := { outerEnabled := pass.enabled, outerScope := pass.scope, name, line }
    .ok { pass.push (.sectionBlock block) with scope := Key.join pass.scope (some name) }

def endSection (pass : Pass) : Except FormatCause Pass :=
  match pass.blocks with
  | .sectionBlock block :: rest => .ok { pass with blocks := rest, scope := block.outerScope }
  | _ => .error (.openerMissing Directive.sectionEnd.word Directive.sectionBegin.word)

/-- A rule without effects, its causes named at a line. -/
def checked {α : Type} (line : Nat) (result : Except FormatCause α) : ExceptT LoadError m α :=
  ExceptT.mk (pure (result.mapError (.at_ line)))

def direct (external : Source m) (line : Nat) (argument : Text) (pass : Pass) :
    Directive → ExceptT LoadError m Pass
  | .define => do
    if !pass.enabled then return pass
    let (name, text) ← checked line (definition .define argument)
    pass.define name text
  | .set => do
    if !pass.enabled then return pass
    let (name, text) ← checked line (definition .set argument)
    pass.define name (← pass.expand external text)
  | .undefine => do
    if !pass.enabled then return pass
    let (name, _) ← checked line (definition .undefine argument)
    pass.undefine name
  | .ifBegin => pass.beginIf external line argument
  | .ifElse => checked line pass.beginElse
  | .ifEnd => checked line pass.endIf
  | .switchBegin => pass.beginSwitch external line argument
  | .switchCase => checked line (pass.beginCase argument)
  | .switchDefault => checked line pass.beginDefault
  | .switchEnd => checked line pass.endSwitch
  | .sectionBegin => checked line (pass.beginSection line argument)
  | .sectionEnd => checked line pass.endSection

def step (external : Source m) (line : Nat) (pass : Pass) :
    Statement → ExceptT LoadError m Pass
  | .entry key value => pure (if key = [] || !pass.enabled then pass else pass.enter key value)
  | .directive word argument => pass.direct external line argument word
  | .unknown text => throw (.at_ line (.unknownDirective text))

def run (external : Source m) : List (Nat × Statement) → Pass → ExceptT LoadError m Pass
  | [], pass => pure pass
  | (line, statement) :: rest, pass => do
    run external rest (← pass.step external line statement)

def openerOf : Block → Directive
  | .ifBlock _ => .ifBegin
  | .switchBlock _ => .switchBegin
  | .sectionBlock _ => .sectionBegin

/-- Ends the pass: no block may be open. -/
def finish (pass : Pass) : Except LoadError Pass :=
  match pass.blocks with
  | [] => .ok { pass with store := pass.store.merge }
  | block :: _ => .error (.at_ block.line (.neverClosed (openerOf block).word))

end Pass

/-- Carries out a source text on macros and a store, and gives them back as the text leaves them. -/
def process {m : Type → Type} [Monad m] [Journal m] (external : Source m) (text : Text)
    (macros : Table) (store : Store) : ExceptT LoadError m (Store × Table) := do
  let pass ← Pass.run external (statements text) { macros, store }
  let finished ← ExceptT.mk (pure pass.finish)
  for key in pass.store.overridden do
    Journal.record (.valueOverridden key)
  Journal.record
    (.textProcessed (Text.lines text).length pass.store.admitted.length)
  return (finished.store, finished.macros)

end Keyfile
