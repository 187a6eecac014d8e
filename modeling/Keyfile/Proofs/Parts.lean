import Keyfile.Proofs.BlockLengths
import Keyfile.Proofs.Origins
import Keyfile.Proofs.Reloading
import Mathlib.Algebra.Order.BigOperators.Group.List

/-!
# Parts of a configuration

Each macro and each entry of a configuration is saved on its own as well. It comes back on its own
exactly when it is legible, and the whole configuration comes back when each of its parts does. The
converse is too much to ask for: the lines of a text that breaks its line are carried out, and they
can make the very same text again.
-/

namespace Keyfile

open Text

/-- The value of an entry cannot be read from the lines behind the first. -/
lemma exists_head (key : Text) {value : Text} (htidy : Tidy value) :
    ∃ after tail, entryLines (key, value) = headLine key after :: tail ∧
      ∀ first rest, rest <:+ tail →
        ∀ line other, (line, .entry other value) ∉ gather none first rest := by
  cases hmulti : isMultiline value with
  | false =>
    refine ⟨value, [], by simp [entryLines, hmulti, headLine], ?_⟩
    intro first rest hsuffix line other hmem
    rw [List.suffix_nil.1 hsuffix, gather] at hmem
    cases hmem
  | true =>
    refine ⟨blockStart, lines value ++ [blockEnd], by simp [entryLines, hmulti, headLine], ?_⟩
    rintro first rest ⟨before, hsplit⟩ line other hmem
    have hlength := length_of_mem_gather hmem
    obtain ⟨head, others, hlines, -⟩ := htidy.exists_first hmulti
    have hvalue : value.length + 2 = ((lines value).map fun part => part.length + 2).sum := by
      rw [← length_join_crlf (by simp [hlines]), htidy.joined]
    have hlines : ((lines value).map lineWeight).sum ≤
        ((lines value).map fun part => part.length + 2).sum := by
      apply List.sum_le_sum
      intro part _
      unfold lineWeight
      split <;> omega
    have hend : lineWeight blockEnd = 0 := by
      rw [lineWeight, if_pos (by decide)]
    have hsum : ((lines value ++ [blockEnd]).map lineWeight).sum =
        (before.map lineWeight).sum + (rest.map lineWeight).sum := by
      rw [← hsplit, List.map_append, List.sum_append]
    simp only [List.map_append, List.sum_append, List.map_cons, List.map_nil, List.sum_cons,
      List.sum_nil, hend] at hsum
    simp only [openWeight, Option.elim_none] at hlength
    omega

/-- The key of an entry that waits for its position is not the key that it gets. -/
lemma ne_indexed_of_cutAt {key after found value base : Text} {index : Nat}
    (hplaced : ¬Key.autoIndex.isSuffixOf key)
    (hcut : cutAt '=' (trim (headLine key after)) = some (found, value))
    (hfull : Key.qualify none (trim found) = base ++ Key.autoIndex)
    (hlength : (Text.ofNat index).length = 1) : Key.indexed base index ≠ key := by
  rintro rfl
  have hequals : '=' ∉ Key.indexed base index := by
    have hbase : '=' ∉ base := by
      intro hmem
      have hmem : '=' ∈ Key.qualify none (trim found) := hfull ▸ List.mem_append_left _ hmem
      exact (cutAt_eq_some_iff.1 hcut).2 (mem_of_mem_trim (Key.mem_of_mem_qualify_none hmem))
    have hdigits : '=' ∉ Text.ofNat index := fun hmem =>
      absurd (isDigit_of_mem_ofNat hmem) (by decide)
    simp [Key.indexed, hbase, hdigits]
  rw [trim_of_cutAt hequals hcut] at hfull
  have hsame : (base ++ Key.autoIndex).length = (Key.indexed base index).length := by
    simp [Key.indexed, Key.autoIndex, hlength]
  have hle := length_trim_le (Key.indexed base index)
  have heq : Key.indexed base index = base ++ Key.autoIndex := by
    rcases Key.qualify_none_cases (trim (Key.indexed base index)) with heq | ⟨rest, hrest, heq⟩
    · rw [heq] at hfull
      rw [← hfull, trim_eq_self_of_length_le (by rw [hfull, hsame])]
    · rw [heq] at hfull
      rw [hrest, hfull, List.length_cons] at hle
      omega
  exact hplaced (heq ▸ List.isSuffixOf_iff_suffix.2 (List.suffix_append base Key.autoIndex))

namespace Pass

variable {pass middle : Pass} {key other value target base : Text}

/-- A value that no later statement stores keeps the key that it got. -/
lemma eq_of_holds_of_run {numbered : List (Nat × Statement)}
    (hmiddle : middle.Holds fun pair => pair.1 = target)
    (hlater : ∀ number name, (number, .entry name value) ∉ numbered)
    (hrun : Pass.run (.silent : Source Id) numbered middle = pure pass)
    (hmerge : pass.store.merge.items.entries = [(key, value)]) : key = target := by
  have hholds : pass.Holds fun pair => pair.1 = target ∨ pair.2 ≠ value := by
    refine Holds.run ⟨?_, ?_⟩ ?_ hrun
    · exact fun pair hpair => .inl (hmiddle.stored pair hpair)
    · exact fun pair hpair => .inl (hmiddle.waiting pair hpair)
    · rintro number name found hmem - full
      refine .inr ?_
      rintro rfl
      exact hlater _ _ hmem
  have hpair := hholds.merge (key, value) (hmerge ▸ List.mem_singleton_self _)
  exact hpair.resolve_right (by simp)

/-- The first value of an array waits for the first position. -/
lemma holds_enter_waiting (hbase : base ++ Key.autoIndex = Key.qualify none other) (value : Text) :
    (enter {} other value).Holds fun pair => pair.1 = Key.indexed base 0 := by
  have hauto : Key.autoIndex.isSuffixOf (base ++ Key.autoIndex) :=
    List.isSuffixOf_iff_suffix.2 (List.suffix_append base Key.autoIndex)
  have htake : (base ++ Key.autoIndex).take
      ((base ++ Key.autoIndex).length - Key.autoIndex.length) = base := by
    rw [List.length_append, Nat.add_sub_cancel, List.take_left]
  rw [enter]
  simp only [← hbase, hauto, if_true, htake]
  constructor
  · simp [Store.append]
  · simp [Store.append, Store.queued, Store.enqueue, Store.positions]

lemma holds_enter_placed (h : ¬Key.autoIndex.isSuffixOf (Key.qualify none other)) (value : Text) :
    (enter {} other value).Holds fun pair => pair.1 = Key.qualify none other := by
  rw [enter]
  simp only [h, Bool.false_eq_true, if_false]
  constructor
  · simp [Store.set, Table.insert, place]
  · simp [Store.set, Store.queued]

end Pass

/-- A single entry that comes back has been read where its lines begin. -/
lemma exists_said_of_run {key value : Text} (hkey : StoredKey key) (htidy : Tidy value)
    {pass : Pass}
    (hrun : Pass.run (.silent : Source Id) (gather none 1 (entryLines (key, value))) {} = pure pass)
    (hmerge : pass.store.merge.items.entries = [(key, value)]) :
    ∃ tail, said (gather none 1 (entryLines (key, value))) =
      (1, some (.entry key value)) :: tail := by
  obtain ⟨after, tail, hlines, hbehind⟩ := exists_head key htidy
  rw [hlines] at hrun ⊢
  by_cases hin : ∃ line other, other ≠ [] ∧
      (line, .entry other value) ∈ gather none 1 (headLine key after :: tail)
  · obtain ⟨line, other, hother, hmem⟩ := hin
    rcases gather_none_cases 1 (headLine key after) tail with
      hskip | ⟨statement, first, rest, hsuffix, hgather⟩
    · rw [hskip] at hmem
      exact absurd hmem (hbehind _ _ List.suffix_rfl _ _)
    · rw [hgather] at hmem hrun
      have hlater : ∀ number name, (number, .entry name value) ∉ gather none first rest :=
        hbehind _ _ hsuffix
      rcases List.mem_cons.1 hmem with heq | hmem
      · obtain ⟨-, rfl⟩ := Prod.mk.inj heq
        have hsaid : said (gather none 1 (headLine key after :: tail)) =
            (1, some (.entry (Key.qualify none other) value)) :: said (gather none first rest) := by
          rw [hgather]
          simp [said, Statement.says?, hother]
        obtain ⟨middle, hstep, hrun⟩ := bind_eq_pure_iff.1 hrun
        have hmiddle : Pass.enter {} other value = middle := by
          have hstep := pure_inj hstep
          rwa [if_neg (by simp [hother, Pass.enabled])] at hstep
        subst hmiddle
        by_cases hauto : Key.autoIndex.isSuffixOf (Key.qualify none other)
        · obtain ⟨base, hbase⟩ := List.isSuffixOf_iff_suffix.1 hauto
          have hindexed : key = Key.indexed base 0 :=
            Pass.eq_of_holds_of_run (Pass.holds_enter_waiting hbase value) hlater hrun hmerge
          obtain ⟨found, text, -, -, hcut, hfull, -⟩ := cases_of_said hsaid
          exact absurd hindexed.symm
            (ne_indexed_of_cutAt hkey.placed hcut (hfull.trans hbase.symm) rfl)
        · have hfull : key = Key.qualify none other :=
            Pass.eq_of_holds_of_run (Pass.holds_enter_placed hauto value) hlater hrun hmerge
          rw [← hfull] at hsaid
          exact ⟨_, hsaid⟩
      · exact absurd hmem (hlater _ _)
  · -- nothing stores the value
    have hholds : pass.Holds fun pair => pair.2 ≠ value := by
      refine Pass.Holds.run ⟨by simp, by simp [Store.queued]⟩ ?_ hrun
      rintro line other found hmem hother _ rfl
      exact hin ⟨line, other, hother, hmem⟩
    exact absurd rfl (hholds.merge (key, value) (hmerge ▸ List.mem_singleton_self _))

namespace Configuration

variable {config part : Configuration}

/-- The saved form of a configuration loads as the configuration. -/
def Reloads (config : Configuration) : Prop :=
  Configuration.load {} .silent (normalizeNewlines (config.saved none)) =
    (pure config : ExceptT LoadError Id Configuration)

/-- Each macro and each entry as a configuration of its own. -/
def parts (config : Configuration) : List Configuration :=
  (config.macros.entries.map fun definition => { macros := ⟨[definition]⟩ }) ++
    config.store.items.entries.map fun entry => { store := .ofItems ⟨[entry]⟩ }

lemma forall_mem_parts {p : Configuration → Prop} :
    (∀ part ∈ config.parts, p part) ↔
      (∀ definition ∈ config.macros.entries, p { macros := ⟨[definition]⟩ }) ∧
        ∀ entry ∈ config.store.items.entries, p { store := .ofItems ⟨[entry]⟩ } := by
  rw [parts, List.forall_mem_append, List.forall_mem_map, List.forall_mem_map]

lemma Loaded.parts (h : config.Loaded) : ∀ part ∈ config.parts, part.Loaded := by
  rw [forall_mem_parts]
  constructor
  · intro definition hmem
    refine ⟨rfl, ⟨.nil, ?_, ?_⟩, ⟨List.pairwise_singleton _ _, ?_⟩⟩
    · rintro _ ⟨⟩
    · rintro _ ⟨⟩
    · simpa using h.macros.name definition hmem
  · intro entry hmem
    refine ⟨rfl, ⟨List.pairwise_singleton _ _, ?_, ?_⟩, ⟨.nil, ?_⟩⟩
    · simpa [Store.ofItems] using h.items.key entry hmem
    · simpa [Store.ofItems] using h.items.value entry hmem
    · rintro _ ⟨⟩

lemma legible_definition_iff {definition : Text × Text} :
    ({ macros := ⟨[definition]⟩ } : Configuration).Legible ↔ LegibleText definition.2 := by
  refine ⟨fun h => h.text definition List.mem_cons_self, fun h => ⟨?_, ?_, ?_⟩⟩
  · simpa using h
  · rintro _ ⟨⟩
  · rintro _ ⟨⟩

lemma legible_entry_iff {entry : Text × Text} :
    ({ store := .ofItems ⟨[entry]⟩ } : Configuration).Legible ↔
      LegibleKey entry.1 ∧ LegibleValue entry.2 := by
  refine ⟨fun h => ⟨h.key entry List.mem_cons_self, h.value entry List.mem_cons_self⟩,
    fun h => ⟨?_, ?_, ?_⟩⟩
  · rintro _ ⟨⟩
  · simpa [Store.ofItems] using h.1
  · simpa [Store.ofItems] using h.2

lemma legible_parts : (∀ part ∈ config.parts, part.Legible) ↔ config.Legible := by
  rw [forall_mem_parts]
  simp only [legible_definition_iff, legible_entry_iff]
  constructor
  · rintro ⟨htexts, hentries⟩
    exact ⟨htexts, fun entry hmem => (hentries entry hmem).1, fun entry hmem => (hentries entry hmem).2⟩
  · intro h
    exact ⟨h.text, fun entry hmem => ⟨h.key entry hmem, h.value entry hmem⟩⟩

lemma Loaded.reloads (h : config.Loaded) (hlegible : config.Legible) : config.Reloads :=
  (follows_load Source.Follows.silent {} _).eq_pure (h.follows_load_saved hlegible .silent)

/-- The text of a macro that comes back on its own is without line breaks, as nothing is stored. -/
lemma unbroken_of_reloads {definition : Text × Text}
    (h : ({ macros := ⟨[definition]⟩ } : Configuration).Reloads) : Unbroken definition.2 := by
  obtain ⟨pass, hrun, hpass⟩ := exists_run_of_load h
  obtain ⟨hstore, hmacros⟩ := Configuration.mk.inj hpass
  have hmerge : pass.store.merge.items.entries = [] := by rw [← hstore]
  have hunbroken : pass.UnbrokenMacros := by
    refine Pass.UnbrokenMacros.run ?_ (fun _ hmem => readable_of_mem_statements hmem) hrun
      (Pass.items_eq_nil_of_merge hmerge)
    rintro _ ⟨⟩
  exact hunbroken definition (hmacros ▸ List.mem_singleton_self definition)

lemma legible_of_reloads_definition {definition : Text × Text} (hname : MacroName definition.1)
    (h : ({ macros := ⟨[definition]⟩ } : Configuration).Reloads) : LegibleText definition.2 := by
  have hunbroken := unbroken_of_reloads h
  obtain ⟨pass, hrun, hpass⟩ := exists_run_of_load h
  obtain ⟨-, hmacros⟩ := Configuration.mk.inj hpass
  have hloaded : ({ macros := ⟨[definition]⟩ } : Configuration).Loaded :=
    ⟨rfl, ⟨.nil, by rintro _ ⟨⟩, by rintro _ ⟨⟩⟩, ⟨List.pairwise_singleton _ _, by simpa using hname⟩⟩
  obtain ⟨statement, hline, hsaying⟩ := says?_definitionLine hname definition.2
  have hsaid : (said (statements (normalizeNewlines
      (({ macros := ⟨[definition]⟩ } : Configuration).saved none)))).map (·.2) =
        [Saying.definition definition.1 (trim definition.2)].map some := by
    rw [statements_normalizeNewlines, hloaded.statements_saved (by simpa using hunbroken)]
    have hlines : ({ macros := ⟨[definition]⟩ } : Configuration).savedLines none =
        [definitionLine definition, []] := rfl
    have hblank : Statement.Line.ofText (trim []) = .nothing := rfl
    rw [hlines, gather, hline, gather, hblank, gather]
    simp [said, hsaying]
  have heq := pure_inj (hrun.symm.trans (Pass.run_of_said hsaid (by simp [Pass.Placed])))
  rw [heq] at hmacros
  have hpairs : [definition] = [(definition.1, trim definition.2)] := congrArg Table.entries hmacros
  exact ⟨(congrArg Prod.snd (List.cons.inj hpairs).1).symm, hunbroken⟩

lemma legible_of_reloads_entry {entry : Text × Text} (hkey : StoredKey entry.1)
    (htidy : Tidy entry.2) (h : ({ store := .ofItems ⟨[entry]⟩ } : Configuration).Reloads) :
    LegibleKey entry.1 ∧ LegibleValue entry.2 := by
  obtain ⟨pass, hrun, hpass⟩ := exists_run_of_load h
  obtain ⟨hstore, -⟩ := Configuration.mk.inj hpass
  have hloaded : ({ store := .ofItems ⟨[entry]⟩ } : Configuration).Loaded := by
    refine ⟨rfl, ⟨List.pairwise_singleton _ _, ?_, ?_⟩, ⟨.nil, ?_⟩⟩
    · simpa [Store.ofItems] using hkey
    · simpa [Store.ofItems] using htidy
    · rintro _ ⟨⟩
  have hlines : ({ store := .ofItems ⟨[entry]⟩ } : Configuration).savedLines none =
      entryLines entry ++ [] := rfl
  rw [statements_normalizeNewlines, hloaded.statements_saved (by rintro _ ⟨⟩), hlines,
    List.append_nil] at hrun
  have hmerge : pass.store.merge.items.entries = [entry] := by rw [← hstore]; rfl
  obtain ⟨tail, hsaid⟩ := exists_said_of_run hkey htidy hrun hmerge
  rw [← List.append_nil (entryLines _)] at hsaid
  exact legible_of_said hkey.nonempty htidy (by rintro _ ⟨⟩) hsaid

/-- The parts of a loaded configuration come back, each on its own, exactly when the configuration
is legible. -/
theorem Loaded.reloads_parts_iff (h : config.Loaded) :
    (∀ part ∈ config.parts, part.Reloads) ↔ config.Legible := by
  constructor
  · intro hparts
    obtain ⟨hdefinitions, hentries⟩ := forall_mem_parts.1 hparts
    refine legible_parts.1 (forall_mem_parts.2 ⟨fun definition hmem => ?_, fun entry hmem => ?_⟩)
    · exact legible_definition_iff.2 <|
        legible_of_reloads_definition (h.macros.name definition hmem) (hdefinitions definition hmem)
    · exact legible_entry_iff.2 <|
        legible_of_reloads_entry (h.items.key entry hmem) (h.items.value entry hmem)
          (hentries entry hmem)
  · intro hlegible part hpart
    exact (h.parts part hpart).reloads (legible_parts.2 hlegible part hpart)

end Configuration

end Keyfile
