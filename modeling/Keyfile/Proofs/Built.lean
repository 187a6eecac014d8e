import Keyfile.Proofs.Loaded
import Keyfile.Proofs.Steps
import Keyfile.Proofs.StoreHistory

/-!
# Configurations that are built step by step

A configuration is built from the empty one by loads, by writes and removals through any scope, and
by definitions. However it is built, no key and no macro is in it twice.
-/

namespace Keyfile

/-- The configurations that can be built; a load is one that returns, in any world and with any
answers. -/
inductive Configuration.Built : Configuration → Prop
  | empty : Built {}
  | load {config next : Configuration} (h : Built config) {external : Source Session} {text : Text}
      {world after : World}
      (hrun : (config.load external text).run.run.run world = (.ok (.ok next), after)) : Built next
  | set {config : Configuration} (h : Built config) (scope : Option Text) (key value : Text) :
      Built (config.set scope key value)
  | remove {config : Configuration} (h : Built config) (scope : Option Text) (key : Text) :
      Built (config.remove scope key)
  | define {config : Configuration} (h : Built config) (name text : Text) :
      Built (config.define name text)
  | undefine {config : Configuration} (h : Built config) (name : Text) :
      Built (config.undefine name)
  | overlay {config : Configuration} (h : Built config) (other : Configuration) :
      Built (config.overlay other)

/-- No key of the store and no name of the macros is there twice. -/
structure Distincts (store : Store) (macros : Table) : Prop where
  items : Distinct store.items.entries
  macros : Distinct macros.entries

namespace Pass

variable {pass next : Pass} {line : Nat}

/-- A rule without effects leaves the store and the macros alone. -/
lemma keeps_of_rule {argument : Text} {word : Directive}
    (h : pass.rule? line argument word = some (.ok next)) :
    next.store = pass.store ∧ next.macros = pass.macros := by
  cases word with
  | define | set | undefine | ifBegin | switchBegin => cases h
  | ifElse =>
    have hkeeps := keeps_beginElse (Option.some.inj h)
    exact ⟨hkeeps.store, hkeeps.macros⟩
  | ifEnd =>
    have hkeeps := keeps_endIf (Option.some.inj h)
    exact ⟨hkeeps.store, hkeeps.macros⟩
  | switchCase =>
    have hkeeps := keeps_beginCase (Option.some.inj h)
    exact ⟨hkeeps.store, hkeeps.macros⟩
  | switchDefault =>
    have hkeeps := keeps_beginDefault (Option.some.inj h)
    exact ⟨hkeeps.store, hkeeps.macros⟩
  | switchEnd =>
    have hkeeps := keeps_endSwitch (Option.some.inj h)
    exact ⟨hkeeps.store, hkeeps.macros⟩
  | sectionBegin =>
    have hbegin : pass.beginSection line argument = .ok next := Option.some.inj h
    unfold beginSection at hbegin
    split at hbegin
    · cases hbegin
    · split at hbegin
      · cases hbegin
      · cases hbegin
        exact ⟨rfl, rfl⟩
  | sectionEnd =>
    have hend : pass.endSection = .ok next := Option.some.inj h
    unfold endSection at hend
    split at hend
    · cases hend
      exact ⟨rfl, rfl⟩
    · cases hend

lemma distincts_enter (h : Distincts pass.store pass.macros) (key value : Text) :
    Distincts (pass.enter key value).store (pass.enter key value).macros := by
  unfold enter
  by_cases hauto : Key.autoIndex.isSuffixOf (Key.qualify pass.scope key) = true
  · simp only [hauto, if_true]
    exact ⟨h.items, h.macros⟩
  · simp only [hauto]
    exact ⟨Table.distinct_insert h.items _ _, h.macros⟩

lemma Comes.distincts {statement : Statement} {outcome : Except LoadError Pass}
    (hcomes : Comes line pass statement outcome) (hnext : outcome = .ok next)
    (h : Distincts pass.store pass.macros) : Distincts next.store next.macros := by
  cases hcomes with
  | entry key value =>
    obtain rfl := Except.ok.inj hnext
    split
    · exact h
    · exact distincts_enter h key value
  | rule hrule =>
    rename_i result
    cases result with
    | error cause => cases hnext
    | ok after =>
      obtain rfl : after = next := Except.ok.inj hnext
      obtain ⟨hstore, hmacros⟩ := keeps_of_rule hrule
      rwa [hstore, hmacros]
  | passedOver _ _ =>
    obtain rfl := Except.ok.inj hnext
    exact h
  | defined _ _ value =>
    obtain rfl := Except.ok.inj hnext
    exact ⟨h.items, Table.distinct_insert h.macros _ _⟩
  | undefined _ =>
    obtain rfl := Except.ok.inj hnext
    exact ⟨h.items, Table.distinct_erase h.macros _⟩
  | conditional _ _ | choice _ _ =>
    obtain rfl := Except.ok.inj hnext
    exact ⟨h.items, h.macros⟩
  | unknown _ | refused _ _ | conditionMissing _ | expressionMissing | unexpanded _ _ _ => cases hnext

lemma Runs.distincts {numbered : List (Nat × Statement)} {outcome : Except LoadError Pass}
    (hruns : Runs numbered pass outcome) (hnext : outcome = .ok next)
    (h : Distincts pass.store pass.macros) : Distincts next.store next.macros := by
  induction hruns with
  | nil pass =>
    obtain rfl := Except.ok.inj hnext
    exact h
  | fails _ _ => cases hnext
  | cons hstep _ ih => exact ih hnext (hstep.distincts rfl h)

end Pass

lemma Processed.distincts {text : Text} {macros : Table} {store : Store} {pair : Store × Table}
    (h : Processed text macros store (.ok pair)) (hdistinct : Distincts store macros) :
    Distincts pair.1 pair.2 := by
  obtain ⟨ended, hruns, heq⟩ := h
  cases ended with
  | error error => cases heq
  | ok pass =>
    have hpass := hruns.distincts rfl hdistinct
    rw [Except.bind, Pass.finish] at heq
    split at heq
    · cases heq
      exact ⟨Store.distinct_merge hpass.items, hpass.macros⟩
    · cases heq

namespace Configuration

lemma distinct_overlay {config : Configuration} (h : Distinct config.store.items.entries)
    (other : Configuration) : Distinct (config.overlay other).store.items.entries := by
  have hfold : ∀ (entries : List (Text × Text)) (store : Store), Distinct store.items.entries →
      Distinct
        (entries.foldl (fun store entry => store.set entry.1 entry.2) store).items.entries := by
    intro entries
    induction entries with
    | nil => exact fun _ hstore => hstore
    | cons entry rest ih => exact fun store hstore => ih _ (Table.distinct_insert hstore _ _)
  exact hfold _ _ h

/-- No key and no macro is in a configuration twice, however it was built. -/
theorem Built.distincts {config : Configuration} (h : config.Built) :
    Distincts config.store config.macros := by
  induction h with
  | empty => exact ⟨.nil, .nil⟩
  | @load config next _ external text world after hrun ih =>
    obtain ⟨processed, hprocessed, heq⟩ :=
      (config.always_load external text).of_run_session hrun
    cases processed with
    | error error => cases heq
    | ok pair =>
      obtain rfl := Except.ok.inj heq
      have hpair := hprocessed.distincts ⟨ih.items, ih.macros⟩
      exact ⟨hpair.items, hpair.macros⟩
  | set _ scope key value ih => exact ⟨Table.distinct_insert ih.items _ _, ih.macros⟩
  | remove _ scope key ih => exact ⟨Table.distinct_erase ih.items _, ih.macros⟩
  | define _ name text ih => exact ⟨ih.items, Table.distinct_insert ih.macros _ _⟩
  | undefine _ name ih => exact ⟨ih.items, Table.distinct_erase ih.macros _⟩
  | overlay _ other ih => exact ⟨distinct_overlay ih.items other, ih.macros⟩

end Configuration

end Keyfile
