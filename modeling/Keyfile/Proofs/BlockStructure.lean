import Keyfile.Proofs.Nesting
import Keyfile.Proofs.Relays
import Keyfile.Proofs.Steps
import Keyfile.Session.Environment
import Mathlib.Tactic.Common

/-!
# Block structure

Whether a source text can be carried out is decided by its lines: a check that sees only the lines
and the open blocks reports the line at which every pass over the text stops, unless the pass stops
before at a definition, a condition or an expansion, which depend on what the text is carried out
on. Among the expansions are those that are nested too deeply, which no check of the lines can see.
-/

namespace Keyfile

namespace Nesting

/-- The first of some numbered lines that breaks the block structure; a block that is never closed
breaks it at the line that opened it. The flag tells whether a value of several lines is open: its
lines are passed over up to the line that closes it. -/
def check? : Bool → Nat → List Opening → List Text → Option Nat
  | _, _, [], [] => none
  | _, _, opening :: _, [] => some (openedAt opening)
  | true, number, openings, line :: rest =>
    check? (!blockEnd.isPrefixOf (Text.trim line)) (number + 1) openings rest
  | false, number, openings, line :: rest =>
    match Statement.Line.ofText (Text.trim line) with
    | .nothing => check? false (number + 1) openings rest
    | .opening _ _ => check? true (number + 1) openings rest
    | .statement statement =>
      match next number openings statement with
      | none => some number
      | some openings => check? false (number + 1) openings rest

def checkText? (text : Text) : Option Nat :=
  check? false 1 [] (Text.lines text)

lemma fault?_close (value : OpenValue) (openings : List Opening)
    (rest : List (Nat × Statement)) :
    fault? openings (value.close :: rest) = fault? openings rest := by
  rw [OpenValue.close, fault?, next]

/-- The lines of an open value become one entry, and an entry changes no block. So the induction
is on the gathering, and the flag is all that the check keeps of the value. -/
lemma check?_eq_fault?_gather (state : Option OpenValue) (number : Nat) (lines : List Text)
    (openings : List Opening) :
    check? state.isSome number openings lines = fault? openings (gather state number lines) := by
  fun_induction gather state number lines generalizing openings with
  | case1 => cases openings <;> rfl
  | case2 value number =>
    rw [fault?_close]
    cases openings <;> rfl
  | case3 value number line rest trimmed hend ih =>
    rw [fault?_close, ← ih, Option.isSome_some, check?]
    rw [show blockEnd.isPrefixOf (Text.trim line) = true from hend]
    rfl
  | case4 value number line rest trimmed hinside ih =>
    rw [← ih, Option.isSome_some, check?]
    rw [show blockEnd.isPrefixOf (Text.trim line) = false from eq_false_of_ne_true hinside]
    rfl
  | case5 number line rest hnothing ih =>
    rw [← ih, Option.isSome_none, check?, hnothing]
  | case6 number line rest statement hstatement ih =>
    rw [Option.isSome_none, check?, fault?]
    simp only [hstatement]
    cases next number openings statement with
    | none => rfl
    | some openings => exact ih openings
  | case7 number line rest key first hopening ih =>
    rw [← ih, Option.isSome_none, check?, hopening]
    rfl

theorem checkText?_eq_fault? (text : Text) : checkText? text = fault? [] (statements text) :=
  check?_eq_fault?_gather none 1 (Text.lines text) []

end Nesting

/-- Whether an error comes from what a text is carried out on: a name that is missing or cannot be
defined where a definition is carried out, a missing condition or a cycle of references. -/
def LoadError.isOfData : LoadError → Bool
  | .format (.nameMissing _) _ | .format (.nameReserved _ _) _ | .format .conditionMissing _
  | .expansion (.cycle _) => true
  | .expansion .tooDeep | .format _ _ => false

/-- What the nesting sees of an open block. -/
def Block.opening : Block → Opening
  | ifBlock block => .conditional block.line block.inElse
  | switchBlock block => .choice block.line block.hasDefault
  | sectionBlock block => .scope block.line

lemma Block.openedAt_opening (block : Block) : Nesting.openedAt block.opening = block.line := by
  cases block <;> rfl

namespace Pass

open Nesting

def openings (pass : Pass) : List Opening :=
  pass.blocks.map Block.opening

/-- A rule gives the open blocks that come next, and fails where none come next. -/
def RuleFits (next : Option (List Opening)) : Except FormatCause Pass → Prop
  | .ok after => next = some after.openings
  | .error _ => next = none

variable (pass : Pass) (line : Nat) (argument : Text)

lemma beginElse_fits :
    RuleFits (Nesting.direct line argument pass.openings .ifElse) pass.beginElse := by
  unfold beginElse openings
  rcases pass.blocks with _ | ⟨⟨_, _, _, _ | _⟩ | _ | _, rest⟩ <;> rfl

lemma endIf_fits :
    RuleFits (Nesting.direct line argument pass.openings .ifEnd) pass.endIf := by
  unfold endIf openings
  rcases pass.blocks with _ | ⟨_ | _ | _, rest⟩ <;> rfl

lemma beginCase_fits :
    RuleFits (Nesting.direct line argument pass.openings .switchCase)
      (pass.beginCase argument) := by
  unfold beginCase openings
  rcases pass.blocks with _ | ⟨_ | ⟨_, _, _, _, _, _ | _⟩ | _, rest⟩ <;> rfl

lemma beginDefault_fits :
    RuleFits (Nesting.direct line argument pass.openings .switchDefault) pass.beginDefault := by
  unfold beginDefault openings
  rcases pass.blocks with _ | ⟨_ | ⟨_, _, _, _, _, _ | _⟩ | _, rest⟩ <;> rfl

lemma endSwitch_fits :
    RuleFits (Nesting.direct line argument pass.openings .switchEnd) pass.endSwitch := by
  unfold endSwitch openings
  rcases pass.blocks with _ | ⟨_ | _ | _, rest⟩ <;> rfl

lemma beginSection_fits :
    RuleFits (Nesting.direct line argument pass.openings .sectionBegin)
      (pass.beginSection line argument) := by
  unfold beginSection Nesting.direct
  by_cases hempty : argument = []
  · simp only [hempty, if_true, decide_true, Bool.true_or]
    rfl
  · by_cases hindexed : Text.includes Key.autoIndex argument = true
    · simp only [hempty, hindexed, if_true, if_false, decide_false, Bool.false_or]
      rfl
    · simp only [hempty, hindexed, if_false, decide_false, Bool.false_or]
      rfl

lemma endSection_fits :
    RuleFits (Nesting.direct line argument pass.openings .sectionEnd) pass.endSection := by
  unfold endSection openings
  rcases pass.blocks with _ | ⟨_ | _ | _, rest⟩ <;> rfl

lemma rule_fits {pass : Pass} {line : Nat} {argument : Text} {word : Directive}
    {result : Except FormatCause Pass} (h : pass.rule? line argument word = some result) :
    RuleFits (Nesting.direct line argument pass.openings word) result := by
  cases word with
  | define | set | undefine | ifBegin | switchBegin => cases h
  | ifElse =>
    cases h
    exact pass.beginElse_fits line argument
  | ifEnd =>
    cases h
    exact pass.endIf_fits line argument
  | switchCase =>
    cases h
    exact pass.beginCase_fits line argument
  | switchDefault =>
    cases h
    exact pass.beginDefault_fits line argument
  | switchEnd =>
    cases h
    exact pass.endSwitch_fits line argument
  | sectionBegin =>
    cases h
    exact pass.beginSection_fits line argument
  | sectionEnd =>
    cases h
    exact pass.endSection_fits line argument

/-- A step comes out as the nesting says: it leaves the open blocks that come next, or it fails at
its own line where none come next, unless an error of the data or too deep an expansion comes
before. -/
def StepFits (line : Nat) (next : Option (List Opening)) : Except LoadError Pass → Prop
  | .ok after => next = some after.openings
  | .error error =>
    (error.isOfData = true ∨ error = .expansion .tooDeep) ∨
      next = none ∧ ∃ cause, error = .at_ line cause

lemma isOfData_of_definition {word : Directive} {argument : Text} {cause : FormatCause}
    {line : Nat} (h : definition word argument = .error cause) :
    (LoadError.at_ line cause).isOfData = true := by
  unfold definition at h
  split at h
  · cases h
    rfl
  · split at h
    · cases h
      rfl
    · cases h

/-- A definition opens and closes no block. -/
lemma direct_of_mem {word : Directive} (hword : word ∈ [.define, .set, .undefine])
    (line : Nat) (argument : Text) (openings : List Opening) :
    Nesting.direct line argument openings word = some openings := by
  simp only [List.mem_cons, List.not_mem_nil, or_false] at hword
  rcases hword with rfl | rfl | rfl <;> rfl

lemma Comes.fits {line : Nat} {pass : Pass} {statement : Statement}
    {outcome : Except LoadError Pass} (h : Comes line pass statement outcome) :
    StepFits line (next line pass.openings statement) outcome := by
  cases h with
  | entry key value =>
    by_cases hidle : (decide (key = []) || !pass.enabled) = true
    · rw [if_pos hidle]
      rfl
    · rw [if_neg hidle]
      unfold enter
      rfl
  | unknown text => exact .inr ⟨rfl, _, rfl⟩
  | rule hrule =>
    have hfits := rule_fits hrule
    rename_i result
    cases result with
    | ok after => exact hfits
    | error cause => exact .inr ⟨hfits, cause, rfl⟩
  | passedOver hword argument => exact direct_of_mem hword line argument pass.openings
  | refused hword hdefinition => exact .inl (.inl (isOfData_of_definition hdefinition))
  | defined hword _ value =>
    exact direct_of_mem (List.mem_append_left [.undefine] hword) line _ pass.openings
  | undefined _ => rfl
  | conditional argument condition => rfl
  | conditionMissing argument => exact .inl (.inl rfl)
  | choice hargument value => exact if_neg hargument
  | expressionMissing => exact .inr ⟨rfl, _, rfl⟩
  | unexpanded _ argument error =>
    cases error with
    | cycle name => exact .inl (.inl rfl)
    | tooDeep => exact .inl (.inr rfl)

/-- An outcome agrees with the line that is reported, unless an error of the data or too deep an
expansion comes before. -/
def Agrees {α : Type} (fault : Option Nat) : Except LoadError α → Prop
  | .ok _ => fault = none
  | .error error =>
    (error.isOfData = true ∨ error = .expansion .tooDeep) ∨
      ∃ line cause, fault = some line ∧ error = .at_ line cause

lemma finish_agrees (pass : Pass) : Agrees (fault? pass.openings []) pass.finish := by
  unfold finish openings
  cases pass.blocks with
  | nil => rfl
  | cons block rest => exact .inr ⟨block.line, _, by simp [fault?, block.openedAt_opening], rfl⟩

lemma Runs.agrees {numbered : List (Nat × Statement)} {pass : Pass}
    {outcome : Except LoadError Pass} (h : Runs numbered pass outcome) :
    Agrees (fault? pass.openings numbered) (outcome.bind finish) := by
  induction h with
  | nil pass => exact pass.finish_agrees
  | @fails line statement rest pass error hstep =>
    rcases hstep.fits with hdata | ⟨hnext, cause, rfl⟩
    · exact .inl hdata
    · refine .inr ⟨line, cause, ?_, rfl⟩
      rw [fault?, hnext]
  | @cons line statement rest pass next outcome hstep _ ih =>
    have hfits : Nesting.next line pass.openings statement = some next.openings := hstep.fits
    rw [fault?, hfits]
    exact ih

end Pass

lemma Processed.agrees {text : Text} {macros : Table} {store : Store}
    {outcome : Except LoadError (Store × Table)} (h : Processed text macros store outcome) :
    Pass.Agrees (Nesting.checkText? text) outcome := by
  obtain ⟨ended, hruns, rfl⟩ := h
  have hagrees := hruns.agrees
  rw [Nesting.checkText?_eq_fault?]
  cases hended : ended.bind Pass.finish with
  | ok pass =>
    rw [hended] at hagrees
    exact hagrees
  | error error =>
    rw [hended] at hagrees
    exact hagrees

/-- Unless an error of the data or too deep an expansion comes before, a text is malformed at
exactly the line that is reported, and is carried out to its end exactly when none is. -/
def DecidedBy {α : Type} (fault : Option Nat) (outcome : Except LoadError α) : Prop :=
  outcome ≠ .error (.expansion .tooDeep) →
    (∀ error, outcome = .error error → error.isOfData = false) →
    (∀ line, (∃ cause, outcome = .error (.format cause (some line))) ↔ fault = some line) ∧
      ((∃ result, outcome = .ok result) ↔ fault = none)

lemma decidedBy_of_agrees {α : Type} {fault : Option Nat} {outcome : Except LoadError α}
    (h : Pass.Agrees fault outcome) : DecidedBy fault outcome := by
  intro hshallow hdata
  cases outcome with
  | ok result =>
    obtain rfl : fault = none := h
    simp
  | error error =>
    rcases h with (hofData | rfl) | ⟨line, cause, rfl, rfl⟩
    · rw [hdata error rfl] at hofData
      cases hofData
    · exact absurd rfl hshallow
    · simp [LoadError.at_]

/-- The lines of a text decide how it comes out, whatever the macros, the store, the answers from
outside and the state that these depend on, as long as no expansion is nested too deeply. -/
theorem process_malformed_iff_reported (text : Text) (macros : Table) (store : Store) :
    (∀ (σ : Type) [Journal (StateM σ)] (external : Source (StateM σ)) (state : σ),
      DecidedBy (Nesting.checkText? text)
        ((process external text macros store).run.run state).1) ∧
    ∀ (external : Source Session) (world after : World)
        (outcome : Except LoadError (Store × Table)),
      (process external text macros store).run.run.run world = (.ok outcome, after) →
        DecidedBy (Nesting.checkText? text) outcome := by
  constructor
  · intro σ _ external state
    have hprocess := always_process external text macros store
    exact decidedBy_of_agrees (hprocess.of_run_state state).agrees
  · intro external world after outcome hrun
    have hprocess := always_process external text macros store
    exact decidedBy_of_agrees (hprocess.of_run_session hrun).agrees

/-- A conditional with two second branches, after a value whose lines look like one. -/
def twoBranches : Text :=
  Text.join ['\n'] (["hint = \x7b\x7b", "#else", "\x7d\x7d", "#if debug", "#else", "debug = no",
    "#else", "#endif"].map String.toList)

/-- Answers from the process environment. -/
def processSource : Source (StateM World) where
  names := []
  ask name := do
    return (← get).processEnvironment.get? name

theorem process_twoBranches_malformed :
    (∃ cause, ((process processSource twoBranches {} {}).run.run default).1 =
      .error (.format cause (some 7))) ∧
    ∃ after outcome, (process (Environment.source {}) twoBranches {} {}).run.run.run default =
      (.ok outcome, after) ∧ ∃ cause, outcome = .error (.format cause (some 7)) := by
  have hreported : Nesting.checkText? twoBranches = some 7 := by decide +kernel
  constructor
  · have hrun : ((process processSource twoBranches {} {}).run.run default).1 =
        .error (.format .elseRepeated (some 7)) := by decide +kernel
    have hdata : ∀ error, ((process processSource twoBranches {} {}).run.run default).1 =
        .error error → error.isOfData = false := by
      intro error herror
      rw [hrun] at herror
      cases herror
      rfl
    have hdecided := (process_malformed_iff_reported twoBranches {} {}).1 World processSource
      default (by rw [hrun]; rintro ⟨⟩) hdata
    exact (hdecided.1 7).2 hreported
  · have hrun : (process (Environment.source {}) twoBranches {} {}).run.run.run default =
        (.ok (.error (.format .elseRepeated (some 7))), default) := by rfl
    refine ⟨_, _, hrun, ?_⟩
    have hdata : ∀ error, (.error (.format .elseRepeated (some 7)) :
        Except LoadError (Store × Table)) = .error error → error.isOfData = false := by
      rintro _ ⟨⟩
      rfl
    have hdecided := (process_malformed_iff_reported twoBranches {} {}).2 _ _ _ _ hrun
      (by rintro ⟨⟩) hdata
    exact (hdecided.1 7).2 hreported

/-- A set of a name to a reference, and a second branch of no conditional. -/
def strayBranch : Text :=
  "#set y %0%\n#else".toList

/-- A set whose text has no expansion ends the pass. -/
lemma Pass.direct_set_of_throw {m : Type → Type} [Monad m] [LawfulMonad m] [Journal m]
    {external : Source m} {pass : Pass} {argument name text : Text} {error : LoadError}
    (henabled : pass.enabled = true) (hdefinition : definition .set argument = .ok (name, text))
    (herror : pass.expand external text = throw error) (line : Nat) :
    pass.direct external line argument .set = throw error := by
  have hchecked : checked (m := m) line (definition .set argument) = pure (name, text) := by
    rw [hdefinition]
    rfl
  rw [direct, henabled, hchecked, pure_bind]
  dsimp only
  rw [herror, throw_bind_eq]
  rfl

lemma process_strayBranch_of_relays {m : Type → Type} [Monad m] [LawfulMonad m] [Journal m]
    {macros : Table} (h : (Source.ofTable macros : Source m).Relays) (external : Source m)
    (store : Store) :
    process external strayBranch macros store = throw (.expansion .tooDeep) := by
  have hstatements : statements strayBranch = [(1, .directive .set "y %0%".toList),
      (2, .directive .ifElse [])] := by decide +kernel
  have hexpand : Pass.expand { macros, store } external "%0%".toList =
      throw (.expansion .tooDeep) := by
    rw [Pass.expand, Pass.source, expand_of_relays (h.chain_cons _), adapt_throw]
  have hdefinition : Pass.definition .set "y %0%".toList = .ok ("y".toList, "%0%".toList) := by
    decide +kernel
  have hset : Pass.step external 1 { macros, store } (.directive .set "y %0%".toList) =
      throw (.expansion .tooDeep) :=
    Pass.direct_set_of_throw rfl hdefinition hexpand 1
  rw [process, hstatements, Pass.run, hset, throw_bind_eq, throw_bind_eq]

/-- The second line is reported, and a pass whose macros are a relay does not come to it. -/
theorem process_strayBranch_tooDeep :
    Nesting.checkText? strayBranch = some 2 ∧
      (LoadError.expansion .tooDeep).isOfData = false ∧
      ((process processSource strayBranch (relay 400) {}).run.run default).1 =
        .error (.expansion .tooDeep) := by
  refine ⟨by decide +kernel, rfl, ?_⟩
  rw [process_strayBranch_of_relays (Source.relays_relay (by decide))]
  rfl

end Keyfile
