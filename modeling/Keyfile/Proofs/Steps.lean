import Keyfile.Configuration.Basic
import Keyfile.Proofs.Results
import Mathlib.Tactic.Common

/-!
# What a pass can do

All that a step of a pass can come to, whatever monad it runs in and whatever is answered there: the
answers decide which conditions hold, which texts macros and switches get and whether an expansion
fails, and nothing else. What is proved of these outcomes holds of every run.
-/

namespace Keyfile

namespace Pass

/-- The directives that are carried out by a rule without effects. -/
def rule? (pass : Pass) (line : Nat) (argument : Text) :
    Directive → Option (Except FormatCause Pass)
  | .ifElse => some pass.beginElse
  | .ifEnd => some pass.endIf
  | .switchCase => some (pass.beginCase argument)
  | .switchDefault => some pass.beginDefault
  | .switchEnd => some pass.endSwitch
  | .sectionBegin => some (pass.beginSection line argument)
  | .sectionEnd => some pass.endSection
  | .define | .set | .undefine | .ifBegin | .switchBegin => none

/-- All that a statement at a line can come to. -/
inductive Comes (line : Nat) (pass : Pass) : Statement → Except LoadError Pass → Prop
  | entry (key value : Text) :
      Comes line pass (.entry key value)
        (.ok (if key = [] || !pass.enabled then pass else pass.enter key value))
  | unknown (text : Text) :
      Comes line pass (.unknown text) (.error (.at_ line (.unknownDirective text)))
  | rule {word : Directive} {argument : Text} {result : Except FormatCause Pass}
      (h : pass.rule? line argument word = some result) :
      Comes line pass (.directive word argument) (result.mapError (.at_ line))
  | passedOver {word : Directive} (hword : word ∈ [.define, .set, .undefine]) (argument : Text) :
      Comes line pass (.directive word argument) (.ok pass)
  | refused {word : Directive} (hword : word ∈ [.define, .set, .undefine]) {argument : Text}
      {cause : FormatCause} (h : definition word argument = .error cause) :
      Comes line pass (.directive word argument) (.error (.at_ line cause))
  | defined {word : Directive} (hword : word ∈ [.define, .set]) {argument name text : Text}
      (h : definition word argument = .ok (name, text)) (value : Text) :
      Comes line pass (.directive word argument)
        (.ok { pass with macros := pass.macros.insert name value })
  | undefined {argument name text : Text}
      (h : definition .undefine argument = .ok (name, text)) :
      Comes line pass (.directive .undefine argument)
        (.ok { pass with macros := pass.macros.erase name })
  | conditional (argument : Text) (condition : Bool) :
      Comes line pass (.directive .ifBegin argument)
        (.ok (pass.push (.ifBlock { outerEnabled := pass.enabled, condition, line })))
  | conditionMissing (argument : Text) :
      Comes line pass (.directive .ifBegin argument) (.error (.at_ line .conditionMissing))
  | choice {argument : Text} (hargument : argument ≠ []) (value : Text) :
      Comes line pass (.directive .switchBegin argument)
        (.ok (pass.push (.switchBlock { outerEnabled := pass.enabled, value, line })))
  | expressionMissing :
      Comes line pass (.directive .switchBegin []) (.error (.at_ line .expressionMissing))
  | unexpanded {word : Directive} (hword : word ∈ [.set, .switchBegin]) (argument : Text)
      (error : ExpansionError) :
      Comes line pass (.directive word argument) (.error (.expansion error))

/-- All that statements can come to, one after the other. -/
inductive Runs : List (Nat × Statement) → Pass → Except LoadError Pass → Prop
  | nil (pass : Pass) : Runs [] pass (.ok pass)
  | fails {line : Nat} {statement : Statement} (rest : List (Nat × Statement)) {pass : Pass}
      {error : LoadError} (h : Comes line pass statement (.error error)) :
      Runs ((line, statement) :: rest) pass (.error error)
  | cons {line : Nat} {statement : Statement} {rest : List (Nat × Statement)} {pass next : Pass}
      {outcome : Except LoadError Pass} (h : Comes line pass statement (.ok next))
      (hrest : Runs rest next outcome) : Runs ((line, statement) :: rest) pass outcome

section Steps

variable {m : Type → Type} [Monad m] [LawfulMonad m] (pass : Pass) (line : Nat) (argument : Text)

/-- An expansion gives a text or an error of its own. -/
def ExpansionOnly {α : Type} : Except LoadError α → Prop
  | .ok _ => True
  | .error error => ∃ cause, error = .expansion cause

lemma always_expand (external : Source m) (t : Text) :
    Always (pass.expand external t).run ExpansionOnly := by
  apply Always.run_adapt
  · intro _
    trivial
  · intro cause
    exact ⟨cause, rfl⟩

lemma always_switchValue (external : Source m) :
    Always (pass.switchValue external argument).run ExpansionOnly := by
  unfold switchValue
  split
  · exact pass.always_expand external argument
  · apply Always.run_lift_bind
    intro found
    cases found with
    | none =>
      apply Always.run_pure
      trivial
    | some value => exact pass.always_expand external value

/-- A condition holds or not, unless it is missing. -/
def ConditionOnly : Except LoadError Bool → Prop
  | .ok _ => True
  | .error error => error = .at_ line .conditionMissing

lemma always_condition (external : Source m) :
    Always (pass.condition external line argument).run (ConditionOnly line) := by
  unfold condition
  split
  rename_i negated name _
  dsimp only
  by_cases hempty : name = []
  · rw [if_pos hempty]
    apply Always.run_throw_bind
    rfl
  rw [if_neg hempty]
  by_cases htrue : Text.lower name = "true".toList
  · rw [if_pos htrue, pure_bind]
    apply Always.run_pure
    trivial
  rw [if_neg htrue]
  by_cases hfalse : Text.lower name = "false".toList
  · rw [if_pos hfalse, pure_bind]
    apply Always.run_pure
    trivial
  rw [if_neg hfalse]
  by_cases hknown : pass.macros.contains name = true
  · rw [if_pos hknown, pure_bind]
    apply Always.run_pure
    trivial
  rw [if_neg hknown]
  apply Always.run_lift_bind
  intro found
  apply Always.run_pure
  trivial

lemma always_beginIf (external : Source m) :
    Always (pass.beginIf external line argument).run
      (Comes line pass (.directive .ifBegin argument)) := by
  unfold beginIf
  dsimp only
  split
  · apply (pass.always_condition line argument external).bind_run
    · intro condition _
      apply Always.run_pure
      exact .conditional argument condition
    · rintro _ rfl
      exact .conditionMissing argument
  · rw [pure_bind]
    apply Always.run_pure
    exact .conditional argument false

lemma always_beginSwitch (external : Source m) :
    Always (pass.beginSwitch external line argument).run
      (Comes line pass (.directive .switchBegin argument)) := by
  unfold beginSwitch
  split
  · rename_i hargument
    apply Always.run_throw_bind
    rw [hargument]
    exact .expressionMissing
  · rename_i hargument
    dsimp only
    split
    · apply (pass.always_switchValue argument external).bind_run
      · intro value _
        apply Always.run_pure
        exact .choice hargument value
      · rintro _ ⟨cause, rfl⟩
        exact .unexpanded (by simp) argument cause
    · rw [pure_bind]
      apply Always.run_pure
      exact .choice hargument []

lemma always_definition {word : Directive} (hword : word ∈ [.define, .set, .undefine])
    {f : Text × Text → ExceptT LoadError m Pass}
    (h : ∀ name text, definition word argument = .ok (name, text) →
      Always (f (name, text)).run (Comes line pass (.directive word argument))) :
    Always (checked line (definition word argument) >>= f).run
      (Comes line pass (.directive word argument)) := by
  cases hdefinition : definition word argument with
  | error cause =>
    apply Always.run_throw_bind
    exact .refused hword hdefinition
  | ok found =>
    have hok : checked (m := m) line (.ok found : Except FormatCause (Text × Text)) = pure found :=
      rfl
    rw [hok, pure_bind]
    exact h found.1 found.2 hdefinition

variable [Journal m]

/-- Every directive comes to one of its outcomes. -/
lemma always_direct (external : Source m) (word : Directive) :
    Always (pass.direct external line argument word).run
      (Comes line pass (.directive word argument)) := by
  cases word with
  | define =>
    rw [direct]
    split
    · apply Always.run_pure
      exact .passedOver (by simp) argument
    · apply pass.always_definition line argument (by simp)
      intro name text hdefinition
      apply Always.run_record_bind
      apply Always.run_pure
      exact .defined (by simp) hdefinition text
  | set =>
    rw [direct]
    split
    · apply Always.run_pure
      exact .passedOver (by simp) argument
    · apply pass.always_definition line argument (by simp)
      intro name text hdefinition
      apply (pass.always_expand external text).bind_run
      · intro value _
        apply Always.run_record_bind
        apply Always.run_pure
        exact .defined (by simp) hdefinition value
      · rintro _ ⟨cause, rfl⟩
        exact .unexpanded (by simp) argument cause
  | undefine =>
    rw [direct]
    split
    · apply Always.run_pure
      exact .passedOver (by simp) argument
    · apply pass.always_definition line argument (by simp)
      intro name text hdefinition
      unfold undefine
      dsimp only
      split
      · apply Always.run_record_bind
        apply Always.run_pure
        exact .undefined hdefinition
      · apply Always.run_pure
        exact .undefined hdefinition
  | ifBegin => exact pass.always_beginIf line argument external
  | switchBegin => exact pass.always_beginSwitch line argument external
  | ifElse | ifEnd | switchCase | switchDefault | switchEnd | sectionBegin | sectionEnd =>
    apply Always.of_pure
    exact .rule rfl

lemma always_step (external : Source m) (statement : Statement) :
    Always (pass.step external line statement).run (Comes line pass statement) := by
  cases statement with
  | entry key value =>
    apply Always.run_pure
    exact .entry key value
  | directive word argument => exact pass.always_direct line argument external word
  | unknown text =>
    apply Always.run_throw
    exact .unknown text

lemma always_run (external : Source m) (numbered : List (Nat × Statement)) :
    Always (Pass.run external numbered pass).run (Runs numbered pass) := by
  induction numbered generalizing pass with
  | nil =>
    apply Always.run_pure
    exact .nil pass
  | cons first rest ih =>
    obtain ⟨line, statement⟩ := first
    apply (pass.always_step line external statement).bind_run
    · intro next hstep
      apply (ih next).mono
      intro outcome hrest
      exact .cons hstep hrest
    · intro error hstep
      exact .fails rest hstep

end Steps

end Pass

/-- All that a source text can come to. -/
def Processed (text : Text) (macros : Table) (store : Store)
    (outcome : Except LoadError (Store × Table)) : Prop :=
  ∃ ended, Pass.Runs (statements text) { macros, store } ended ∧
    outcome = (ended.bind Pass.finish).map fun pass => (pass.store, pass.macros)

section Texts

variable {m : Type → Type} [Monad m] [LawfulMonad m] [Journal m] (external : Source m)
  (text : Text)

lemma always_records (event : Text → Event) (keys : List Text) :
    Always
      (forIn keys PUnit.unit fun key _ => do
        Journal.record (event key)
        return ForInStep.yield PUnit.unit : ExceptT LoadError m PUnit).run
      (· = .ok PUnit.unit) := by
  induction keys with
  | nil =>
    apply Always.run_pure
    rfl
  | cons key rest ih =>
    rw [List.forIn_cons, bind_assoc]
    apply Always.run_record_bind
    rw [pure_bind]
    exact ih

theorem always_process (macros : Table) (store : Store) :
    Always (process external text macros store).run (Processed text macros store) := by
  unfold process
  apply (Pass.always_run _ external (statements text)).bind_run
  · intro pass hruns
    cases hfinish : pass.finish with
    | error error =>
      apply Always.run_throw_bind
      exact ⟨.ok pass, hruns, by rw [Except.bind, hfinish]; rfl⟩
    | ok finished =>
      have hok :
          ExceptT.mk (m := m) (pure (.ok finished : Except LoadError Pass)) = pure finished :=
        rfl
      rw [hok, pure_bind]
      apply (always_records _ _).bind_run
      · intro _ _
        apply Always.run_record_bind
        apply Always.run_pure
        exact ⟨.ok pass, hruns, by rw [Except.bind, hfinish]; rfl⟩
      · rintro _ ⟨⟩
  · intro error hruns
    exact ⟨_, hruns, rfl⟩

/-- A load keeps what its text comes to on the present entries and macros. -/
theorem Configuration.always_load (config : Configuration) :
    Always (config.load external text).run fun outcome =>
      ∃ processed, Processed text config.macros (.ofItems config.store.items) processed ∧
        outcome = processed.map fun pair =>
          { store := .ofItems pair.1.items, macros := pair.2 } := by
  unfold load
  apply (always_process external text _ _).bind_run
  · intro pair hprocessed
    apply Always.run_record_bind
    apply Always.run_pure
    exact ⟨_, hprocessed, rfl⟩
  · intro error hprocessed
    exact ⟨_, hprocessed, rfl⟩

end Texts

end Keyfile
