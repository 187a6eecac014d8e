import Keyfile.Proofs.AutoIndexing
import Keyfile.Proofs.Unrecorded

/-!
# The order of entries

In a source text that says nothing but entries, only the order of those with the same full key
matters. A key has the value that was written to it last; a position of an array to which nothing
was written has the value that waited for it, wherever in the text the two stand.
-/

namespace Keyfile

/-- Whether a full key asks for the next free position of an array. -/
def Key.asksPosition (key : Text) : Bool :=
  Key.autoIndex.isSuffixOf key

def Statement.isEntry : Statement → Bool
  | .entry _ _ => true
  | .directive _ _ | .unknown _ => false

/-- A text that says nothing but entries. -/
def EntriesOnly (text : Text) : Prop :=
  ∀ line ∈ statements text, line.2.isEntry

instance (text : Text) : Decidable (EntriesOnly text) :=
  inferInstanceAs (Decidable (∀ line ∈ statements text, _))

/-- The entries among statements outside of sections, under their full keys. -/
def fullEntries (numbered : List (Nat × Statement)) : List (Text × Text) :=
  numbered.filterMap fun line =>
    match line.2 with
    | .entry key value => if key = [] then none else some (Key.qualify none key, value)
    | .directive _ _ | .unknown _ => none

def ofKey (entries : List (Text × Text)) (key : Text) : List (Text × Text) :=
  entries.filter fun entry => sameName entry.1 key

/-- The entries of each key are the same, in the same order. -/
def Reordered (entries others : List (Text × Text)) : Prop :=
  ∀ key, ofKey entries key = ofKey others key

/-- The value that is written to a key last. -/
def lastWritten? (entries : List (Text × Text)) (key : Text) : Option Text :=
  ((ofKey entries key).filter fun entry => !Key.asksPosition entry.1).getLast?.map (·.2)

/-- The values that wait for the positions of an array, in the order of their writing. -/
def queuedFor (entries : List (Text × Text)) (base : Text) : List Text :=
  ((ofKey entries (base ++ Key.autoIndex)).filter fun entry => Key.asksPosition entry.1).map (·.2)

lemma ofKey_congr (entries : List (Text × Text)) {a b : Text} (h : Text.lower a = Text.lower b) :
    ofKey entries a = ofKey entries b := by
  simp [ofKey, sameName, h]

lemma ofKey_eq_nil {entries : List (Text × Text)} {key : Text}
    (h : ∀ entry ∈ entries, ¬Text.lower entry.1 = Text.lower key) : ofKey entries key = [] := by
  simpa [ofKey] using h

/-- It is enough to look at the keys that occur. -/
lemma reordered_iff {entries others : List (Text × Text)} :
    Reordered entries others ↔
      ∀ entry ∈ entries ++ others, ofKey entries entry.1 = ofKey others entry.1 := by
  refine ⟨fun h entry _ => h entry.1, fun h key => ?_⟩
  by_cases hkey : ∃ entry ∈ entries ++ others, Text.lower entry.1 = Text.lower key
  · obtain ⟨entry, hentry, hsame⟩ := hkey
    rw [← ofKey_congr entries hsame, ← ofKey_congr others hsame]
    exact h entry hentry
  · have hnone : ∀ entry ∈ entries ++ others, ¬Text.lower entry.1 = Text.lower key :=
      fun entry hentry hsame => hkey ⟨entry, hentry, hsame⟩
    obtain ⟨hentries, hothers⟩ := List.forall_mem_append.1 hnone
    rw [ofKey_eq_nil hentries, ofKey_eq_nil hothers]

instance (entries others : List (Text × Text)) : Decidable (Reordered entries others) :=
  decidable_of_iff _ reordered_iff.symm

lemma Reordered.lastWritten?_eq {entries others : List (Text × Text)} (h : Reordered entries others)
    (key : Text) : lastWritten? entries key = lastWritten? others key := by
  rw [lastWritten?, lastWritten?, h key]

lemma Reordered.queuedFor_eq {entries others : List (Text × Text)} (h : Reordered entries others)
    (base : Text) : queuedFor entries base = queuedFor others base := by
  rw [queuedFor, queuedFor, h (base ++ Key.autoIndex)]

namespace Store

/-- What an entry under its full key does to the store. -/
def operationOf (entry : Text × Text) : Operation :=
  if Key.asksPosition entry.1 then
    .append (entry.1.take (entry.1.length - Key.autoIndex.length)) entry.2
  else .set entry.1 entry.2

lemma operationOf_of_placed {entry : Text × Text} (h : Key.asksPosition entry.1 = false) :
    operationOf entry = .set entry.1 entry.2 := by
  simp [operationOf, h]

lemma exists_of_asksPosition {entry : Text × Text} (h : Key.asksPosition entry.1 = true) :
    ∃ base, entry.1 = base ++ Key.autoIndex ∧ operationOf entry = .append base entry.2 := by
  obtain ⟨base, hbase⟩ := List.isSuffixOf_iff_suffix.1 h
  refine ⟨base, hbase.symm, ?_⟩
  rw [operationOf, if_pos h, ← hbase]
  simp

lemma lower_append_autoIndex (base : Text) :
    Text.lower (base ++ Key.autoIndex) = Text.lower base ++ Key.autoIndex := by
  have hsteady : ∀ c ∈ ['-', ']'], Text.Steady c :=
    List.forall_mem_cons.2 ⟨by decide, List.forall_mem_singleton.2 (by decide)⟩
  exact Key.lower_append_bracket_of_steady hsteady base

lemma lastSet_map_operationOf {entries : List (Text × Text)} {key value : Text} :
    LastSet (entries.map operationOf) key value ↔ lastWritten? entries key = some value := by
  -- from the end, because the last entry of a key decides
  induction entries using List.reverseRecOn with
  | nil => simp [not_lastSet_nil, lastWritten?, ofKey]
  | append_singleton entries entry ih =>
    rw [List.map_append, List.map_singleton, lastSet_append_iff, ih]
    cases hposition : Key.asksPosition entry.1 with
    | true =>
      obtain ⟨base, -, hoperation⟩ := exists_of_asksPosition hposition
      have hkept : lastWritten? (entries ++ [entry]) key = lastWritten? entries key := by
        simp [lastWritten?, ofKey, List.filter_append, List.filter_filter, hposition]
      simp [hoperation, hkept, Operation.touches]
    | false =>
      rw [operationOf_of_placed hposition]
      by_cases hsame : Text.lower entry.1 = Text.lower key
      · have hlast : lastWritten? (entries ++ [entry]) key = some entry.2 := by
          simp [lastWritten?, ofKey, List.filter_append, hposition, hsame]
        simp only [hlast, Operation.touches, Operation.set.injEq, sameName_iff, hsame]
        constructor
        · rintro (⟨name, ⟨rfl, rfl⟩, -⟩ | ⟨hother, -⟩)
          · rfl
          · exact absurd trivial hother
        · rintro ⟨⟩
          exact .inl ⟨entry.1, ⟨rfl, rfl⟩, hsame⟩
      · have hkept : lastWritten? (entries ++ [entry]) key = lastWritten? entries key := by
          simp [lastWritten?, ofKey, List.filter_append, hsame]
        simp only [hkept, Operation.touches, Operation.set.injEq, sameName_iff, hsame]
        constructor
        · rintro (⟨name, ⟨rfl, rfl⟩, hname⟩ | ⟨-, hlast⟩)
          · exact absurd hname hsame
          · exact hlast
        · exact fun hlast => .inr ⟨not_false, hlast⟩

lemma waiting_map_operationOf (entries : List (Text × Text)) (base : Text) :
    waiting (entries.map operationOf) base = queuedFor entries base := by
  induction entries with
  | nil => rfl
  | cons entry entries ih =>
    have hwaiting : waiting ((entry :: entries).map operationOf) base =
        ((operationOf entry).waitingFor? base).toList ++ queuedFor entries base := by
      rw [← ih, waiting, List.map_cons, List.filterMap_cons]
      cases (operationOf entry).waitingFor? base <;> rfl
    rw [hwaiting]
    cases hposition : Key.asksPosition entry.1 with
    | true =>
      obtain ⟨name, hname, hoperation⟩ := exists_of_asksPosition hposition
      have hsame : sameName entry.1 (base ++ Key.autoIndex) = sameName name base := by
        rw [Bool.eq_iff_iff, sameName_iff, sameName_iff, hname, lower_append_autoIndex,
          lower_append_autoIndex, List.append_cancel_right_eq]
      rw [hoperation, Operation.waitingFor?]
      cases hbase : sameName name base <;>
        simp [queuedFor, ofKey, hsame, hbase, hposition]
    | false =>
      rw [operationOf_of_placed hposition, Operation.waitingFor?, queuedFor, queuedFor, ofKey,
        ofKey, List.filter_filter, List.filter_filter]
      simp [hposition]

lemma sinceMerge_map_operationOf (entries : List (Text × Text)) :
    sinceMerge (entries.map operationOf) = entries.map operationOf := by
  rw [sinceMerge, List.rtakeWhile_eq_self_iff]
  intro operation hoperation
  obtain ⟨entry, -, rfl⟩ := List.mem_map.1 hoperation
  rw [operationOf]
  split <;> simp

/-- The store of entries before the merge. -/
def written (entries : List (Text × Text)) : Store :=
  run (entries.map operationOf)

lemma written_append (entries : List (Text × Text)) (entry : Text × Text) :
    written (entries ++ [entry]) = (operationOf entry).apply (written entries) := by
  rw [written, List.map_append, List.map_singleton, run_append, written]

lemma written_tracks (entries : List (Text × Text)) :
    (written entries).Tracks (entries.map operationOf) := by
  have htracks := run_tracks (entries.map operationOf)
  rwa [sinceMerge_map_operationOf] at htracks

lemma get?_written_of_none {entries : List (Text × Text)} {key : Text}
    (h : lastWritten? entries key = none) : (written entries).get? key = none := by
  have hnever : ∀ value, ¬LastSet (entries.map operationOf) key value := by
    intro value hlast
    rw [lastSet_map_operationOf, h] at hlast
    cases hlast
  clear h
  induction entries using List.reverseRecOn with
  | nil => rfl
  | append_singleton entries entry ih =>
    rw [List.map_append, List.map_singleton] at hnever
    simp only [lastSet_append_iff, not_or, not_and, not_exists] at hnever
    rw [written_append]
    cases hposition : Key.asksPosition entry.1 with
    | true =>
      obtain ⟨base, -, hoperation⟩ := exists_of_asksPosition hposition
      rw [hoperation] at hnever ⊢
      exact ih fun value => (hnever value).2 (by simp [Operation.touches])
    | false =>
      rw [operationOf_of_placed hposition] at hnever ⊢
      have hother : ¬Text.lower entry.1 = Text.lower key := fun hsame =>
        (hnever entry.2).1 entry.1 rfl (sameName_iff.2 hsame)
      have hkept := ih fun value => (hnever value).2 (by simpa [Operation.touches] using hother)
      rw [Operation.apply, get?, set, Table.get?_insert, if_neg fun heq => hother heq.symm]
      exact hkept

/-- After the merge a position has the value that was written to it last, or else the one that
waited for it. -/
theorem get?_merge_written_indexed (entries : List (Text × Text)) (base : Text) (index : Nat) :
    (written entries).merge.get? (Key.indexed base index) =
      (lastWritten? entries (Key.indexed base index)).or (queuedFor entries base)[index]? := by
  have htracks := written_tracks entries
  cases hlast : lastWritten? entries (Key.indexed base index) with
  | some value => exact htracks.get?_merge_of_lastSet (lastSet_map_operationOf.2 hlast)
  | none =>
    have hnever : ¬∃ value, LastSet (entries.map operationOf) (Key.indexed base index) value := by
      simp [lastSet_map_operationOf, hlast]
    rw [Option.none_or]
    cases hqueued : (queuedFor entries base)[index]? with
    | some value =>
      rw [← waiting_map_operationOf] at hqueued
      exact htracks.get?_merge_of_waiting hnever (sameName_iff.2 rfl) hqueued
    | none =>
      rw [htracks.get?_merge_of_none, get?_written_of_none hlast]
      intro other position hsame
      obtain ⟨hbase, rfl⟩ := Key.lower_indexed_injective (sameName_iff.1 hsame)
      rw [← waiting_congr _ hbase, waiting_map_operationOf]
      exact List.getElem?_eq_none_iff.1 hqueued

/-- After the merge every other key has the value that was written to it last. -/
lemma get?_merge_written (entries : List (Text × Text)) {key : Text}
    (h : ∀ base index, ¬sameName key (Key.indexed base index)) :
    (written entries).merge.get? key = lastWritten? entries key := by
  have htracks := written_tracks entries
  cases hlast : lastWritten? entries key with
  | some value => exact htracks.get?_merge_of_lastSet (lastSet_map_operationOf.2 hlast)
  | none =>
    rw [htracks.get?_merge_of_none, get?_written_of_none hlast]
    exact fun base index hsame => absurd hsame (h base index)

/-- The order of entries with different keys does not matter. -/
theorem get?_merge_written_of_reordered {entries others : List (Text × Text)}
    (h : Reordered entries others) (key : Text) :
    (written entries).merge.get? key = (written others).merge.get? key := by
  by_cases hindexed : ∃ base index, sameName key (Key.indexed base index)
  · obtain ⟨base, index, hsame⟩ := hindexed
    rw [get?_congr _ (sameName_iff.1 hsame), get?_congr _ (sameName_iff.1 hsame),
      get?_merge_written_indexed, get?_merge_written_indexed, h.lastWritten?_eq, h.queuedFor_eq]
  · have hother : ∀ base index, ¬sameName key (Key.indexed base index) :=
      fun base index hsame => hindexed ⟨base, index, hsame⟩
    rw [get?_merge_written entries hother, get?_merge_written others hother, h.lastWritten?_eq]

end Store

lemma Pass.enter_eq (pass : Pass) (key value : Text) :
    pass.enter key value = { pass with
      store := (Store.operationOf (Key.qualify pass.scope key, value)).apply pass.store } := by
  rw [Pass.enter, Store.operationOf, Key.asksPosition]
  dsimp only
  split <;> rfl

/-- A pass over entries outside of all blocks carries them out one after the other. -/
lemma Pass.run_of_entries {m : Type → Type} [Monad m] [LawfulMonad m] [Journal m]
    (external : Source m) {numbered : List (Nat × Statement)}
    (h : ∀ line ∈ numbered, line.2.isEntry) {pass : Pass} (hblocks : pass.blocks = [])
    (hscope : pass.scope = none) :
    Pass.run external numbered pass = pure { pass with
      store := ((fullEntries numbered).map Store.operationOf).foldl Store.Operation.apply
        pass.store } := by
  induction numbered generalizing pass with
  | nil => rfl
  | cons line rest ih =>
    obtain ⟨number, statement⟩ := line
    obtain ⟨hentry, hrest⟩ := List.forall_mem_cons.1 h
    cases statement with
    | directive word argument => cases hentry
    | unknown text => cases hentry
    | entry key value =>
      have henabled : pass.enabled = true := by rw [Pass.enabled, hblocks]
      -- an entry without a name is passed over, on both sides
      by_cases hkey : key = []
      · have hstep : pass.step external number (.entry key value) = pure pass := by
          simp [Pass.step, hkey]
        rw [Pass.run, hstep, pure_bind, ih hrest hblocks hscope]
        simp [fullEntries, hkey]
      · have hstep : pass.step external number (.entry key value) =
            pure (pass.enter key value) := by
          simp [Pass.step, hkey, henabled]
        have hfull : fullEntries ((number, .entry key value) :: rest) =
            (Key.qualify none key, value) :: fullEntries rest := by
          simp [fullEntries, hkey]
        have hblocks' : (pass.enter key value).blocks = [] := by rw [Pass.enter_eq, hblocks]
        have hscope' : (pass.enter key value).scope = none := by rw [Pass.enter_eq, hscope]
        rw [Pass.run, hstep, pure_bind, ih hrest hblocks' hscope', hfull, Pass.enter_eq, hscope]
        rfl

lemma process_of_entriesOnly {text : Text} (h : EntriesOnly text) (external : Source Id)
    (macros : Table) :
    process external text macros {} =
      (pure ((Store.written (fullEntries (statements text))).merge, macros) :
        ExceptT LoadError Id (Store × Table)) := by
  rw [process_eq_run, Pass.run_of_entries external h rfl rfl, pure_bind]
  rfl

theorem process_of_reordered {text other : Text} (htext : EntriesOnly text)
    (hother : EntriesOnly other)
    (h : Reordered (fullEntries (statements text)) (fullEntries (statements other)))
    (external : Source Id) (macros : Table) :
    ∃ store store', process external text macros {} =
        (pure (store, macros) : ExceptT LoadError Id (Store × Table)) ∧
      process external other macros {} =
        (pure (store', macros) : ExceptT LoadError Id (Store × Table)) ∧
      (∀ key, store.get? key = store'.get? key) ∧
      ∀ base index, store.get? (Key.indexed base index) =
        (lastWritten? (fullEntries (statements text)) (Key.indexed base index)).or
          (queuedFor (fullEntries (statements text)) base)[index]? :=
  ⟨_, _, process_of_entriesOnly htext external macros,
    process_of_entriesOnly hother external macros,
    Store.get?_merge_written_of_reordered h, Store.get?_merge_written_indexed _⟩

/-- Two bases that differ in case share their positions, one of which is written explicitly. -/
def hostLines : Text :=
  "host[-] = x\r\nHost[1] = \x7b\x7b\r\none\r\n\x7d\x7d\r\nhost[-] = y\r\nport = 1\r\nHOST[-] = z".toList

def hostLinesReordered : Text :=
  "Host[1] = \x7b\x7b\r\none\r\n\x7d\x7d\r\nport = 1\r\nhost[-] = x\r\nhost[-] = y\r\nHOST[-] = z".toList

theorem process_of_reordered_hosts :
    ∃ store store', process .silent hostLines {} {} =
        (pure (store, {}) : ExceptT LoadError Id (Store × Table)) ∧
      process .silent hostLinesReordered {} {} =
        (pure (store', {}) : ExceptT LoadError Id (Store × Table)) ∧
      (∀ key, store.get? key = store'.get? key) ∧
      store.get? "host[0]".toList = some ['x'] ∧
      store.get? "host[1]".toList = some "one".toList ∧
      store.get? "host[2]".toList = some ['z'] ∧ store.get? "host[3]".toList = none := by
  have htext : EntriesOnly hostLines := by decide +kernel
  have hother : EntriesOnly hostLinesReordered := by decide +kernel
  have hreordered : Reordered (fullEntries (statements hostLines))
      (fullEntries (statements hostLinesReordered)) := by decide +kernel
  obtain ⟨store, store', hfirst, hsecond, hsame, hposition⟩ :=
    process_of_reordered htext hother hreordered .silent {}
  have hvalue : ∀ index, store.get? (Key.indexed "host".toList index) = _ :=
    hposition "host".toList
  exact ⟨store, store', hfirst, hsecond, hsame,
    (hvalue 0).trans (by decide +kernel), (hvalue 1).trans (by decide +kernel),
    (hvalue 2).trans (by decide +kernel), (hvalue 3).trans (by decide +kernel)⟩

end Keyfile
