import Keyfile.Configuration.Basic
import Mathlib.Tactic.Common

/-!
# Loading in two monads

A simulation relates the computations of two monads: those that return the same value are related,
those that record the same event are, and so is what goes on alike after related ones. Whatever is
simulated in this way is loaded alike: when the answers of two sources are related, so are the
passes over a text that ask them.
-/

namespace Keyfile

/-- A relation between computations that is kept by all the ways of putting a load together. -/
structure Simulation (m m' : Type → Type) [Monad m] [Monad m'] [Journal m] [Journal m'] where
  rel {α : Type} : m α → m' α → Prop
  pure {α : Type} (a : α) : rel (Pure.pure a) (Pure.pure a)
  bind {α β : Type} {x : m α} {y : m' α} {f : α → m β} {g : α → m' β} (hx : rel x y)
    (hf : ∀ a, rel (f a) (g a)) : rel (x >>= f) (y >>= g)
  record (event : Event) : rel (Journal.record event) (Journal.record event)

namespace Simulation

variable {m m' : Type → Type} [Monad m] [Monad m'] [Journal m] [Journal m']
  (sim : Simulation m m') {ε ε' α β : Type}

/-- Two computations that can fail, related with what they come to. -/
def Matches (x : ExceptT ε m α) (y : ExceptT ε m' α) : Prop :=
  sim.rel x.run y.run

/-- Two sources that list the same names and answer alike. -/
structure Answers (source : Source m) (other : Source m') : Prop where
  names : source.names = other.names
  ask : ∀ name, sim.rel (source.ask name) (other.ask name)

namespace Matches

variable {sim}

lemma of_pure (a : α) : sim.Matches (Pure.pure a : ExceptT ε m α) (Pure.pure a) :=
  sim.pure _

lemma of_throw (error : ε) : sim.Matches (throw error : ExceptT ε m α) (throw error) :=
  sim.pure _

lemma of_result (result : Except ε α) :
    sim.Matches (ExceptT.mk (Pure.pure result)) (ExceptT.mk (Pure.pure result)) :=
  sim.pure _

lemma bind {x : ExceptT ε m α} {y : ExceptT ε m' α} {f : α → ExceptT ε m β}
    {g : α → ExceptT ε m' β} (hx : sim.Matches x y) (hf : ∀ a, sim.Matches (f a) (g a)) :
    sim.Matches (x >>= f) (y >>= g) := by
  rw [Matches, ExceptT.run_bind, ExceptT.run_bind]
  refine sim.bind hx fun result => ?_
  cases result with
  | ok a => exact hf a
  | error error => exact sim.pure _

lemma substitute (form : Form) {value : Text → ExceptT ε m (Option Text)}
    {value' : Text → ExceptT ε m' (Option Text)} (h : ∀ name, sim.Matches (value name) (value' name))
    (segment : Segment) :
    sim.Matches (form.substitute value segment) (form.substitute value' segment) := by
  cases segment with
  | plain t => exact .of_pure t
  | reference name =>
    rw [Form.substitute, Form.substitute]
    split
    · exact .of_pure _
    · exact (h name).bind fun found => by cases found <;> exact .of_pure _

end Matches

namespace Answers

variable {sim}

lemma silent : sim.Answers .silent .silent where
  names := rfl
  ask _ := sim.pure none

lemma ofTable (table : Table) : sim.Answers (.ofTable table) (.ofTable table) where
  names := rfl
  ask name := sim.pure (table.get? name)

lemma orElse {first second : Source m} {first' second' : Source m'}
    (hfirst : sim.Answers first first') (hsecond : sim.Answers second second') :
    sim.Answers (first.orElse second) (first'.orElse second') where
  names := by rw [Source.orElse, Source.orElse, hfirst.names, hsecond.names]
  ask name := by
    refine sim.bind (hfirst.ask name) fun found => ?_
    cases found with
    | none => exact hsecond.ask name
    | some value => exact sim.pure (some value)

lemma tables (first second : Table) {external : Source m} {external' : Source m'}
    (h : sim.Answers external external') :
    sim.Answers (.chain [.ofTable first, .ofTable second, external])
      (.chain [.ofTable first, .ofTable second, external']) :=
  (ofTable first).orElse ((ofTable second).orElse (h.orElse silent))

end Answers

variable [LawfulMonad m] [LawfulMonad m']

namespace Matches

variable {sim} {value : Text → ExceptT ε m (Option Text)}
  {value' : Text → ExceptT ε m' (Option Text)}

lemma of_lift {x : m α} {y : m' α} (h : sim.rel x y) :
    sim.Matches (ExceptT.lift x : ExceptT ε m α) (ExceptT.lift y) := by
  rw [Matches, ExceptT.run_lift, ExceptT.run_lift, map_eq_pure_bind, map_eq_pure_bind]
  exact sim.bind h fun a => sim.pure _

lemma of_record (event : Event) :
    sim.Matches (Journal.record event : ExceptT ε m Unit) (Journal.record event) :=
  of_lift (sim.record event)

/-- What stands after an error is not looked at. -/
lemma of_throw_bind {error : ε} {f : α → ExceptT ε m β} {g : α → ExceptT ε m' β} :
    sim.Matches (throw error >>= f) (throw error >>= g) := by
  rw [Matches, ExceptT.run_bind, ExceptT.run_bind, ExceptT.run_throw, ExceptT.run_throw,
    pure_bind, pure_bind]
  exact sim.pure _

lemma mapM {f : α → ExceptT ε m β} {g : α → ExceptT ε m' β} (h : ∀ a, sim.Matches (f a) (g a))
    (l : List α) : sim.Matches (l.mapM f) (l.mapM g) := by
  induction l with
  | nil => exact .of_pure []
  | cons a rest ih =>
    rw [List.mapM_cons, List.mapM_cons]
    exact (h a).bind fun b => ih.bind fun bs => .of_pure (b :: bs)

lemma adapt (f : ε → ε') {x : ExceptT ε m α} {y : ExceptT ε m' α} (h : sim.Matches x y) :
    sim.Matches (ExceptT.adapt f x) (ExceptT.adapt f y) := by
  rw [Matches, ExceptT.run_adapt, ExceptT.run_adapt, map_eq_pure_bind, map_eq_pure_bind]
  exact sim.bind h fun result => sim.pure _

lemma replace (form : Form) (h : ∀ name, sim.Matches (value name) (value' name)) (t : Text) :
    sim.Matches (form.replace value t) (form.replace value' t) :=
  (mapM (substitute form h) (form.segments t)).bind fun _ => .of_pure _

/-- Expanding asks for nothing but the answers of the source. -/
lemma expandWithin {source : Source m} {other : Source m'} (h : sim.Answers source other)
    (active : List Text) (t : Text) :
    sim.Matches (expandWithin source active t) (expandWithin other active t) := by
  induction hcount : other.names.countP (· ∉ active) using Nat.strongRecOn
    generalizing active t with
  | ind count ih =>
    rw [Keyfile.expandWithin, Keyfile.expandWithin]
    refine (replace .percent ?value t).bind fun expanded => replace .dollar ?value expanded
    intro name
    by_cases hactive : Text.lower name ∈ active
    · rw [dif_pos hactive, dif_pos hactive]
      exact .of_throw _
    rw [dif_neg hactive, dif_neg hactive]
    by_cases hdeep : nestingLimit ≤ active.length
    · rw [if_pos hdeep, if_pos hdeep]
      exact .of_throw _
    rw [if_neg hdeep, if_neg hdeep]
    by_cases hlisted : Text.lower name ∈ other.names
    · rw [dif_pos hlisted, dif_pos (h.names ▸ hlisted)]
      apply (of_lift (h.ask name)).bind
      intro found
      cases found with
      | none => exact .of_pure none
      | some raw =>
        refine (ih _ ?_ _ raw rfl).bind fun expanded => .of_pure (some expanded)
        exact hcount ▸ countP_notMem_cons_lt hlisted hactive
    · rw [dif_neg hlisted, dif_neg (h.names ▸ hlisted)]
      exact .of_pure none

end Matches

variable {sim} {external : Source m} {external' : Source m'}

lemma matches_expand (h : sim.Answers external external') (pass : Pass) (t : Text) :
    sim.Matches (pass.expand external t) (pass.expand external' t) :=
  .adapt _ (.expandWithin (.tables pass.macros pass.store.items h) [] t)

lemma matches_define (pass : Pass) (name text : Text) :
    sim.Matches (pass.define name text) (pass.define name text) :=
  (Matches.of_record _).bind fun _ => .of_pure _

lemma matches_undefine (pass : Pass) (name : Text) :
    sim.Matches (pass.undefine name) (pass.undefine name) := by
  rw [Pass.undefine, Pass.undefine]
  split
  · exact (Matches.of_record _).bind fun _ => .of_pure _
  · exact .of_pure _

lemma matches_condition (h : sim.Answers external external') (pass : Pass) (line : Nat)
    (argument : Text) :
    sim.Matches (pass.condition external line argument)
      (pass.condition external' line argument) := by
  unfold Pass.condition
  split
  rename_i negated name _
  dsimp only
  by_cases hempty : name = []
  · rw [if_pos hempty, if_pos hempty]
    exact .of_throw_bind
  rw [if_neg hempty, if_neg hempty]
  by_cases htrue : Text.lower name = "true".toList
  · rw [if_pos htrue, if_pos htrue]
    exact (Matches.of_pure _).bind fun _ => .of_pure _
  rw [if_neg htrue, if_neg htrue]
  by_cases hfalse : Text.lower name = "false".toList
  · rw [if_pos hfalse, if_pos hfalse]
    exact (Matches.of_pure _).bind fun _ => .of_pure _
  rw [if_neg hfalse, if_neg hfalse]
  by_cases hknown : pass.macros.contains name = true
  · rw [if_pos hknown, if_pos hknown]
    exact (Matches.of_pure _).bind fun _ => .of_pure _
  rw [if_neg hknown, if_neg hknown]
  exact (Matches.of_lift (h.ask name)).bind fun _ => .of_pure _

lemma matches_beginIf (h : sim.Answers external external') (pass : Pass) (line : Nat)
    (argument : Text) :
    sim.Matches (pass.beginIf external line argument) (pass.beginIf external' line argument) := by
  rw [Pass.beginIf, Pass.beginIf]
  dsimp only
  split
  · exact (matches_condition h pass line argument).bind fun _ => .of_pure _
  · exact (Matches.of_pure _).bind fun _ => .of_pure _

lemma matches_switchValue (h : sim.Answers external external') (pass : Pass)
    (expression : Text) :
    sim.Matches (pass.switchValue external expression) (pass.switchValue external' expression) := by
  rw [Pass.switchValue, Pass.switchValue]
  split
  · exact matches_expand h pass expression
  · have hsource := Answers.tables pass.store.items pass.macros h
    apply (Matches.of_lift (hsource.ask expression)).bind
    intro found
    cases found with
    | none => exact .of_pure []
    | some value => exact matches_expand h pass value

lemma matches_beginSwitch (h : sim.Answers external external') (pass : Pass) (line : Nat)
    (argument : Text) :
    sim.Matches (pass.beginSwitch external line argument)
      (pass.beginSwitch external' line argument) := by
  rw [Pass.beginSwitch, Pass.beginSwitch]
  split
  · exact .of_throw_bind
  · dsimp only
    split
    · exact (matches_switchValue h pass argument).bind fun _ => .of_pure _
    · exact (Matches.of_pure _).bind fun _ => .of_pure _

/-- Every directive is carried out alike. -/
lemma matches_direct (h : sim.Answers external external') (line : Nat) (argument : Text)
    (pass : Pass) (word : Directive) :
    sim.Matches (pass.direct external line argument word)
      (pass.direct external' line argument word) := by
  cases word with
  | define =>
    rw [Pass.direct, Pass.direct]
    split
    · exact .of_pure pass
    · exact (Matches.of_result _).bind fun found => matches_define pass found.1 found.2
  | set =>
    rw [Pass.direct, Pass.direct]
    split
    · exact .of_pure pass
    · apply (Matches.of_result _).bind
      intro found
      exact (matches_expand h pass found.2).bind fun text => matches_define pass found.1 text
  | undefine =>
    rw [Pass.direct, Pass.direct]
    split
    · exact .of_pure pass
    · exact (Matches.of_result _).bind fun found => matches_undefine pass found.1
  | ifBegin => exact matches_beginIf h pass line argument
  | switchBegin => exact matches_beginSwitch h pass line argument
  | ifElse => exact .of_result _
  | ifEnd => exact .of_result _
  | switchCase => exact .of_result _
  | switchDefault => exact .of_result _
  | switchEnd => exact .of_result _
  | sectionBegin => exact .of_result _
  | sectionEnd => exact .of_result _

lemma matches_step (h : sim.Answers external external') (line : Nat) (pass : Pass)
    (statement : Statement) :
    sim.Matches (pass.step external line statement) (pass.step external' line statement) := by
  cases statement with
  | entry key value => exact .of_pure _
  | directive word argument => exact matches_direct h line argument pass word
  | unknown text => exact .of_throw _

lemma matches_run (h : sim.Answers external external') (numbered : List (Nat × Statement))
    (pass : Pass) :
    sim.Matches (Pass.run external numbered pass) (Pass.run external' numbered pass) := by
  induction numbered generalizing pass with
  | nil => exact .of_pure pass
  | cons statement rest ih =>
    exact (matches_step h statement.1 pass statement.2).bind ih

lemma matches_records (event : Text → Event) (keys : List Text) :
    sim.Matches
      (forIn keys PUnit.unit fun key _ => do
        Journal.record (event key)
        return ForInStep.yield PUnit.unit : ExceptT ε m PUnit)
      (forIn keys PUnit.unit fun key _ => do
        Journal.record (event key)
        return ForInStep.yield PUnit.unit) := by
  induction keys with
  | nil => exact .of_pure _
  | cons key rest ih =>
    rw [List.forIn_cons, List.forIn_cons]
    refine ((Matches.of_record (event key)).bind fun _ => .of_pure _).bind fun step => ?_
    cases step with
    | done => exact .of_pure _
    | yield => exact ih

/-- A source text is carried out alike. -/
lemma matches_process (h : sim.Answers external external') (text : Text) (macros : Table)
    (store : Store) :
    sim.Matches (process external text macros store) (process external' text macros store) := by
  rw [process, process]
  apply (matches_run h _ _).bind
  intro pass
  apply (Matches.of_result _).bind
  intro finished
  apply (matches_records _ _).bind
  intro _
  exact (Matches.of_record _).bind fun _ => .of_pure _

lemma matches_load (h : sim.Answers external external') (config : Configuration) (text : Text) :
    sim.Matches (config.load external text) (config.load external' text) := by
  rw [Configuration.load, Configuration.load]
  apply (matches_process h text _ _).bind
  intro loaded
  exact (Matches.of_record _).bind fun _ => .of_pure _

end Simulation

end Keyfile
