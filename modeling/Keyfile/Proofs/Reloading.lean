import Keyfile.Proofs.SavedForm
import Keyfile.Proofs.SessionLoading

/-!
# Loading the saved form

A pass over statements that say something does what they say, whatever answers it could ask for.
Loading the saved form of a legible configuration into an empty one gives the configuration, with
its keys and macros in their order.
-/

namespace Keyfile

namespace Pass

/-- The pass with what a statement says. -/
def hear (pass : Pass) : Saying → Pass
  | .definition name text => { pass with macros := pass.macros.insert name text }
  | .entry key value => { pass with store := pass.store.set key value }

/-- A saying that asks for no position of an array. -/
def Placed (saying : Saying) : Prop :=
  ∀ key value, saying = .entry key value → ¬Key.autoIndex.isSuffixOf key

variable {pass : Pass} {external : Source Session}

lemma follows_step_of_says (hblocks : pass.blocks = []) (hscope : pass.scope = none)
    {statement : Statement} {saying : Saying} (hsaying : statement.says? = some saying)
    (hplaced : Placed saying) (line : Nat) :
    Follows (pass.step external line statement) (pure (pass.hear saying)) := by
  have henabled : pass.enabled = true := by rw [enabled, hblocks]
  cases statement with
  | unknown text => cases hsaying
  | entry key value =>
    rw [Statement.says?] at hsaying
    split at hsaying
    · cases hsaying
    · rename_i hne
      cases hsaying
      have hsuffix : ¬Key.autoIndex.isSuffixOf (Key.qualify none key) := hplaced _ _ rfl
      have henter : pass.enter key value = pass.hear (.entry (Key.qualify none key) value) := by
        have hfull : Key.qualify pass.scope key = Key.qualify none key := by rw [hscope]
        rw [enter]
        simp only [hfull, hsuffix, Bool.false_eq_true, if_false]
        rfl
      rw [step, henabled, henter]
      simp only [hne, Bool.not_true, Bool.or_false, decide_false, Bool.false_eq_true, if_false]
      exact .of_pure _
  | directive word argument =>
    cases word with
    | define =>
      rw [Statement.says?] at hsaying
      split at hsaying
      · rename_i name text hdefinition
        cases hsaying
        rw [step, direct, henabled, hdefinition]
        simp only [Bool.not_true, Bool.false_eq_true, if_false]
        exact follows_define pass name text
      · cases hsaying
    | _ => cases hsaying

lemma blocks_hear (pass : Pass) (saying : Saying) : (pass.hear saying).blocks = pass.blocks := by
  cases saying <;> rfl

lemma scope_hear (pass : Pass) (saying : Saying) : (pass.hear saying).scope = pass.scope := by
  cases saying <;> rfl

/-- A pass over statements that all say something does what they say, one after the other. -/
lemma follows_run_of_said (hblocks : pass.blocks = []) (hscope : pass.scope = none)
    {numbered : List (Nat × Statement)} {sayings : List Saying}
    (hsaid : (said numbered).map (·.2) = sayings.map some)
    (hplaced : ∀ saying ∈ sayings, Placed saying) :
    Follows (Pass.run external numbered pass) (pure (sayings.foldl hear pass)) := by
  induction numbered generalizing sayings pass with
  | nil =>
    obtain rfl : sayings = [] := by simpa [said] using hsaid.symm
    exact .of_pure pass
  | cons statement rest ih =>
    cases sayings with
    | nil => cases hsaid
    | cons saying sayings =>
      obtain ⟨hfirst, hrest⟩ := List.cons.inj hsaid
      obtain ⟨hplace, hplaced⟩ := List.forall_mem_cons.1 hplaced
      have hstep : Follows (pass.step external statement.1 statement.2) (pure (pass.hear saying)) :=
        follows_step_of_says hblocks hscope hfirst hplace statement.1
      refine hstep.bind_of_pure (ih ?_ ?_ hrest hplaced)
      · rw [blocks_hear, hblocks]
      · rw [scope_hear, hscope]

/-- Without effects as well a pass over such statements does what they say. -/
lemma run_of_said {numbered : List (Nat × Statement)} {sayings : List Saying}
    (hsaid : (said numbered).map (·.2) = sayings.map some)
    (hplaced : ∀ saying ∈ sayings, Placed saying) :
    Pass.run (.silent : Source Id) numbered {} = pure (sayings.foldl hear {}) :=
  (follows_run Source.Follows.silent numbered {}).eq_pure
    (follows_run_of_said rfl rfl hsaid hplaced)

lemma foldl_hear_definitions (definitions : List (Text × Text)) (pass : Pass) :
    (definitions.map fun pair => Saying.definition pair.1 pair.2).foldl hear pass =
      { pass with
        macros := definitions.foldl (fun table pair => table.insert pair.1 pair.2) pass.macros } := by
  induction definitions generalizing pass with
  | nil => rfl
  | cons definition rest ih => rw [List.map_cons, List.foldl_cons, ih]; rfl

lemma exists_foldl_hear_entries (entries : List (Text × Text)) (pass : Pass) :
    ∃ explicit, (entries.map fun pair => Saying.entry pair.1 pair.2).foldl hear pass =
      { pass with
        store := { pass.store with
          items := entries.foldl (fun table pair => table.insert pair.1 pair.2) pass.store.items
          explicit } } := by
  induction entries generalizing pass with
  | nil => exact ⟨pass.store.explicit, rfl⟩
  | cons entry rest ih => exact ih (pass.hear (.entry entry.1 entry.2))

end Pass

lemma statements_normalizeNewlines (text : Text) :
    statements (Text.normalizeNewlines text) = statements text := by
  rw [statements, statements, Text.lines_normalizeNewlines]

def Configuration.sayings (config : Configuration) : List Saying :=
  (config.macros.entries.map fun pair => Saying.definition pair.1 pair.2) ++
    config.store.items.entries.map fun pair => Saying.entry pair.1 pair.2

lemma map_meantDefinitions (definitions : List (Text × Text)) (number : Nat) :
    (meantDefinitions number definitions).map (·.2) =
      (definitions.map fun pair => Saying.definition pair.1 pair.2).map some := by
  induction definitions generalizing number with
  | nil => rfl
  | cons definition rest ih => rw [meantDefinitions, List.map_cons, ih]; rfl

lemma map_meantEntries (entries : List (Text × Text)) (number : Nat) :
    (meantEntries number entries).map (·.2) =
      (entries.map fun pair => Saying.entry pair.1 pair.2).map some := by
  induction entries generalizing number with
  | nil => rfl
  | cons entry rest ih => rw [meantEntries, List.map_cons, ih]; rfl

namespace Configuration

variable {config : Configuration}

lemma map_meant (config : Configuration) : config.meant.map (·.2) = config.sayings.map some := by
  rw [meant, sayings, List.map_append, List.map_append, map_meantDefinitions, map_meantEntries]

/-- A pass over what a loaded configuration says ends with its macros and its keys. -/
lemma Loaded.finish_foldl_hear (h : config.Loaded) :
    (config.sayings.foldl Pass.hear {}).finish =
      .ok { macros := config.macros, store := config.store } ∧
      (config.sayings.foldl Pass.hear {}).store.overridden = [] := by
  have hitems : config.store.items.entries.foldl
      (fun table pair => table.insert pair.1 pair.2) {} = config.store.items :=
    Table.ofPairs_entries h.items.distinct
  have hmacros : config.macros.entries.foldl
      (fun table pair => table.insert pair.1 pair.2) {} = config.macros :=
    Table.ofPairs_entries h.macros.distinct
  obtain ⟨explicit, hentries⟩ := Pass.exists_foldl_hear_entries config.store.items.entries
    { macros := config.macros }
  rw [sayings, List.foldl_append, Pass.foldl_hear_definitions, hmacros, hentries, hitems]
  constructor
  · rw [Pass.finish, h.settled]
    rfl
  · rfl

/-- The saved form of a legible configuration loads as the configuration, whatever the source of
answers and the spelling of its line breaks. -/
theorem Loaded.follows_load_saved (h : config.Loaded) (hlegible : config.Legible)
    (external : Source Session) :
    Follows (Configuration.load {} external (Text.normalizeNewlines (config.saved none)))
      (pure config) := by
  set text := Text.normalizeNewlines (config.saved none) with htext
  have hstatements : statements text = statements (config.saved none) :=
    statements_normalizeNewlines _
  have hsaid : (said (statements text)).map (·.2) = config.sayings.map some := by
    rw [hstatements, h.said_saved_iff.2 hlegible, map_meant]
  have hplaced : ∀ saying ∈ config.sayings, Pass.Placed saying := by
    rintro saying hmem key value rfl
    rcases List.mem_append.1 hmem with hmem | hmem
    · obtain ⟨pair, -, heq⟩ := List.mem_map.1 hmem
      cases heq
    · obtain ⟨pair, hpair, heq⟩ := List.mem_map.1 hmem
      cases heq
      exact (h.items.key pair hpair).placed
  have hrun : Follows (Pass.run external (statements text) {})
      (pure (config.sayings.foldl Pass.hear {})) :=
    Pass.follows_run_of_said rfl rfl hsaid hplaced
  obtain ⟨hfinish, hoverridden⟩ := h.finish_foldl_hear
  have hprocess : Follows (process external text {} (.ofItems {}))
      (pure (config.store, config.macros)) := by
    rw [process]
    apply hrun.bind_of_pure
    rw [hfinish, hoverridden]
    apply (Follows.of_result _).bind_of_pure
    apply (Follows.of_pure PUnit.unit).bind_of_pure
    exact (Follows.of_record _).bind_of_pure (.of_pure _)
  rw [load]
  refine hprocess.bind_of_pure ((Follows.of_record _).bind_of_pure ?_)
  rw [← h.settled]
  exact .of_pure config

end Configuration

end Keyfile
