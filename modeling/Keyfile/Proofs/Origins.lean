import Keyfile.Proofs.Loaded

/-!
# Where stored values come from

A directive leaves the store alone, so that every value that a pass stores stands in an entry of the
source text. As long as nothing is stored no macro can get a line break: definitions take their texts
from single lines, and what they expand are texts of macros.
-/

namespace Keyfile

open Text

/-- A source whose answers are without line breaks. -/
def Source.Unbroken (source : Source Id) : Prop :=
  ∀ name value, source.ask name = some value → Text.Unbroken value

lemma Source.Unbroken.orElse {first second : Source Id} (hfirst : first.Unbroken)
    (hsecond : second.Unbroken) : (first.orElse second).Unbroken := by
  intro name value h
  have hask : (first.orElse second).ask name =
      ((first.ask name : Option Text).elim (second.ask name) some) := by
    simp only [Source.orElse]
    cases first.ask name <;> rfl
  rw [hask] at h
  cases hfound : (first.ask name : Option Text) with
  | none => exact hsecond name value (by simpa [hfound] using h)
  | some found =>
    rw [hfound] at h
    obtain rfl : found = value := Option.some.inj h
    exact hfirst name found hfound

lemma Source.unbroken_ofTable {table : Table}
    (h : ∀ entry ∈ table.entries, Text.Unbroken entry.2) : (Source.ofTable table).Unbroken := by
  intro name value hask
  obtain ⟨entry, hentry, rfl⟩ := Option.map_eq_some_iff.1 hask
  exact h entry (List.mem_of_find?_eq_some hentry)

lemma Source.unbroken_silent : (Source.silent : Source Id).Unbroken := by
  rintro name value ⟨⟩

lemma unbroken_replace {form : Form} {value : Text → ExceptT ExpansionError Id (Option Text)}
    (hvalue : ∀ name t, value name = pure (some t) → Unbroken t) {t result : Text}
    (ht : Unbroken t) (h : form.replace value t = pure result) : Unbroken result := by
  rw [Form.replace] at h
  obtain ⟨parts, hparts, h⟩ := bind_eq_pure_iff.1 h
  rw [← pure_inj h]
  intro c hc
  obtain ⟨part, hpart, hc⟩ := List.mem_flatten.1 hc
  obtain ⟨segment, hsegment, heq⟩ := exists_mem_of_mapM hparts hpart
  have hsource : Unbroken (form.source segment) := by
    intro c hc
    apply ht c
    rw [← form.source_segments t]
    exact List.mem_flatMap.2 ⟨segment, hsegment, hc⟩
  cases segment with
  | plain text =>
    rw [← pure_inj heq] at hc
    exact hsource c hc
  | reference name =>
    rw [Form.substitute] at heq
    split at heq
    · rw [← pure_inj heq] at hc
      exact hsource c hc
    · obtain ⟨found, hfound, heq⟩ := bind_eq_pure_iff.1 heq
      cases found with
      | none =>
        rw [← pure_inj heq] at hc
        exact hsource c hc
      | some text =>
        rw [← pure_inj heq] at hc
        exact hvalue name text hfound c hc

/-- Expanding a text without line breaks with answers without line breaks adds none. -/
lemma unbroken_expandWithin {source : Source Id} (hsource : source.Unbroken) {active : List Text}
    {t result : Text} (ht : Unbroken t) (h : expandWithin source active t = pure result) :
    Unbroken result := by
  induction hcount : source.names.countP (· ∉ active) using Nat.strongRecOn
    generalizing active t result with
  | ind count ih =>
    rw [expandWithin] at h
    obtain ⟨middle, hmiddle, h⟩ := bind_eq_pure_iff.1 h
    refine unbroken_replace ?value (unbroken_replace ?value ht hmiddle) h
    intro name text hname
    by_cases hactive : Text.lower name ∈ active
    · rw [dif_pos hactive] at hname
      exact absurd hname throw_ne_pure
    rw [dif_neg hactive] at hname
    by_cases hdeep : nestingLimit ≤ active.length
    · rw [if_pos hdeep] at hname
      exact absurd hname throw_ne_pure
    rw [if_neg hdeep] at hname
    by_cases hlisted : Text.lower name ∈ source.names
    · rw [dif_pos hlisted] at hname
      obtain ⟨found, hfound, hname⟩ := bind_eq_pure_iff.1 hname
      cases found with
      | none => cases pure_inj hname
      | some raw =>
        obtain ⟨expanded, hexpanded, hname⟩ := bind_eq_pure_iff.1 hname
        obtain rfl := Option.some.inj (pure_inj hname)
        have hraw : Unbroken raw := hsource name raw (pure_inj hfound)
        exact ih _ (hcount ▸ countP_notMem_cons_lt hlisted hactive) hraw hexpanded rfl
    · rw [dif_neg hlisted] at hname
      cases pure_inj hname

namespace Pass

variable {pass next : Pass} {external : Source Id} {line : Nat}

/-- All pairs of the store, those that wait for their positions included, have a property. -/
structure Holds (pass : Pass) (p : Text × Text → Prop) : Prop where
  stored : ∀ pair ∈ pass.store.items.entries, p pair
  waiting : ∀ pair ∈ pass.store.queued, p pair

variable {p : Text × Text → Prop}

lemma queued_append {store : Store} {base value : Text} {pair : Text × Text}
    (h : pair ∈ (store.append base value).queued) : pair ∈ store.queued ∨ pair.2 = value := by
  obtain ⟨items, queues, explicit⟩ := store
  simp only [Store.append, Store.queued] at h ⊢
  induction queues with
  | nil =>
    obtain ⟨index, hvalue, -⟩ := Store.mem_positions.1 (by simpa [Store.enqueue] using h)
    exact .inr (List.mem_singleton.1 (List.mem_of_getElem? hvalue))
  | cons queue rest ih =>
    unfold Store.enqueue at h
    split at h
    · rw [List.flatMap_cons, List.mem_append] at h
      rw [List.flatMap_cons, List.mem_append]
      rcases h with h | h
      · obtain ⟨index, hvalue, hkey⟩ := Store.mem_positions.1 h
        rw [List.getElem?_append] at hvalue
        split at hvalue
        · exact .inl (.inl (Store.mem_positions.2 ⟨index, hvalue, hkey⟩))
        · exact .inr (List.mem_singleton.1 (List.mem_of_getElem? hvalue))
      · exact .inl (.inr h)
    · rw [List.flatMap_cons, List.mem_append] at h
      rw [List.flatMap_cons, List.mem_append]
      rcases h with h | h
      · exact .inl (.inl h)
      · exact (ih h).imp_left .inr

lemma Holds.enter (h : pass.Holds p) {value : Text} (hvalue : ∀ key, p (key, value)) (key : Text) :
    (pass.enter key value).Holds p := by
  by_cases hauto : Key.autoIndex.isSuffixOf (Key.qualify pass.scope key)
  · simp only [Pass.enter, hauto, if_true]
    refine ⟨h.stored, fun pair hpair => ?_⟩
    rcases queued_append hpair with hpair | hpair
    · exact h.waiting pair hpair
    · have hpaired := hvalue pair.1
      rwa [← hpair] at hpaired
  · simp only [Pass.enter, hauto, Bool.false_eq_true, if_false]
    refine ⟨fun pair hpair => ?_, h.waiting⟩
    rcases mem_insert hpair with rfl | hpair
    · exact hvalue _
    · exact h.stored pair hpair

lemma Holds.run (h : pass.Holds p) {numbered : List (Nat × Statement)}
    (hvalues : ∀ number key value, (number, .entry key value) ∈ numbered → key ≠ [] →
      ∀ full, p (full, value))
    (heq : Pass.run external numbered pass = pure next) : next.Holds p := by
  induction numbered generalizing pass with
  | nil => rwa [← pure_inj heq]
  | cons statement rest ih =>
    obtain ⟨middle, hstep, heq⟩ := bind_eq_pure_iff.1 heq
    refine ih ?_ (fun number key value hmem => hvalues number key value (List.mem_cons_of_mem _ hmem))
      heq
    obtain ⟨number, statement⟩ := statement
    cases statement with
    | entry key value =>
      have hstep := pure_inj hstep
      split at hstep
      · rwa [← hstep]
      · rename_i hne
        rw [← hstep]
        exact h.enter (hvalues number key value List.mem_cons_self (by simp_all)) key
    | directive word argument =>
      have hstore := (change_of_direct hstep).store
      exact ⟨hstore ▸ h.stored, hstore ▸ h.waiting⟩
    | unknown text => exact absurd hstep throw_ne_pure

lemma Holds.merge (h : pass.Holds p) : ∀ pair ∈ pass.store.merge.items.entries, p pair := by
  have hfold : ∀ (pairs : List (Text × Text)) (table : Table), (∀ pair ∈ table.entries, p pair) →
      (∀ pair ∈ pairs, p pair) →
        ∀ pair ∈ (pairs.foldl (fun table pair => table.insert pair.1 pair.2) table).entries,
          p pair := by
    intro pairs
    induction pairs with
    | nil => exact fun _ htable _ => htable
    | cons first rest ih =>
      intro table htable hpairs
      obtain ⟨hfirst, hrest⟩ := List.forall_mem_cons.1 hpairs
      refine ih _ (fun pair hpair => ?_) hrest
      rcases mem_insert hpair with rfl | hpair
      · exact hfirst
      · exact htable pair hpair
  exact hfold _ _ h.stored fun pair hpair => h.waiting pair (List.mem_filter.1 hpair).1

lemma insert_entries_ne_nil (table : Table) (name value : Text) :
    (table.insert name value).entries ≠ [] := by
  rw [Table.insert]
  cases table.entries with
  | nil => simp [place]
  | cons entry rest =>
    unfold place
    split <;> simp

lemma items_eq_nil_of_step {statement : Statement}
    (h : pass.step external line statement = pure next) (hnil : next.store.items.entries = []) :
    pass.store.items.entries = [] := by
  cases statement with
  | entry key value =>
    have h := pure_inj h
    split at h
    · rwa [h]
    · rw [← h, enter] at hnil
      dsimp only at hnil
      split at hnil
      · exact hnil
      · exact absurd hnil (insert_entries_ne_nil _ _ _)
  | directive word argument => rwa [← (change_of_direct h).store]
  | unknown text => exact absurd h throw_ne_pure

lemma items_eq_nil_of_run {numbered : List (Nat × Statement)}
    (h : Pass.run external numbered pass = pure next) (hnil : next.store.items.entries = []) :
    pass.store.items.entries = [] := by
  induction numbered generalizing pass with
  | nil => rwa [pure_inj h]
  | cons statement rest ih =>
    obtain ⟨middle, hstep, h⟩ := bind_eq_pure_iff.1 h
    exact items_eq_nil_of_step hstep (ih h)

lemma items_eq_nil_of_merge (h : pass.store.merge.items.entries = []) :
    pass.store.items.entries = [] := by
  have hfold : ∀ (pairs : List (Text × Text)) (table : Table),
      (pairs.foldl (fun table pair => table.insert pair.1 pair.2) table).entries = [] →
        table.entries = [] := by
    intro pairs
    induction pairs with
    | nil => exact fun _ htable => htable
    | cons pair rest ih => exact fun _ htable => absurd (ih _ htable) (insert_entries_ne_nil _ _ _)
  exact hfold _ _ h

/-- The texts of the macros are without line breaks. -/
def UnbrokenMacros (pass : Pass) : Prop :=
  ∀ definition ∈ pass.macros.entries, Unbroken definition.2

lemma UnbrokenMacros.step (h : pass.UnbrokenMacros) (hnil : pass.store.items.entries = [])
    {statement : Statement} (hreadable : statement.Readable)
    (heq : pass.step (.silent : Source Id) line statement = pure next) : next.UnbrokenMacros := by
  have hinsert : ∀ {name text : Text}, Unbroken text →
      ∀ definition ∈ (pass.macros.insert name text).entries, Unbroken definition.2 := by
    intro name text htext definition hmem
    rcases mem_insert hmem with rfl | hmem
    · exact htext
    · exact h definition hmem
  cases statement with
  | entry key value =>
    have heq := pure_inj heq
    split at heq
    · rwa [← heq]
    · rw [← heq]
      exact h
  | unknown text => exact absurd heq throw_ne_pure
  | directive word argument =>
    cases change_of_direct heq with
    | keeps hkeeps =>
      rw [UnbrokenMacros, hkeeps.macros]
      exact h
    | define hword hname => exact hinsert (unbroken_of_firstWord hreadable hword)
    | set hword hname hexpanded =>
      apply hinsert
      have hsource : (pass.source .silent).Unbroken :=
        (Source.unbroken_ofTable h).orElse <| (Source.unbroken_ofTable (by simp [hnil])).orElse <|
          Source.unbroken_silent.orElse Source.unbroken_silent
      exact unbroken_expandWithin hsource (unbroken_of_firstWord hreadable hword)
        (eq_pure_of_adapt hexpanded)
    | undefine name => exact fun definition hmem => h definition (List.mem_filter.1 hmem).1
    | sectionBegin block houter => exact h
    | sectionEnd hblocks => exact h

/-- As long as nothing is stored no macro gets a line break. -/
lemma UnbrokenMacros.run (h : pass.UnbrokenMacros) {numbered : List (Nat × Statement)}
    (hreadable : ∀ statement ∈ numbered, statement.2.Readable)
    (heq : Pass.run (.silent : Source Id) numbered pass = pure next) (hnil : next.store.items.entries = []) :
    next.UnbrokenMacros := by
  induction numbered generalizing pass with
  | nil => rwa [← pure_inj heq]
  | cons statement rest ih =>
    have hbefore := items_eq_nil_of_run heq hnil
    obtain ⟨hfirst, hrest⟩ := List.forall_mem_cons.1 hreadable
    obtain ⟨middle, hstep, heq⟩ := bind_eq_pure_iff.1 heq
    exact ih (h.step hbefore hfirst hstep) hrest heq

end Pass

end Keyfile
