import Keyfile.Configuration.Basic
import Keyfile.Proofs.AutoIndexing
import Keyfile.Proofs.Outcomes
import Keyfile.Proofs.Readable

/-!
# Loaded configurations

Whatever source text is loaded, no key and no name of a macro is there twice, the names of the
macros are single words, keys hold no line breaks, and the raw values are tidy. Every step of the
pass preserves this.
-/

namespace Keyfile

open Text

/-- A name that a definition can give to a macro. -/
structure MacroName (name : Text) : Prop where
  nonempty : name ≠ []
  solid : ∀ c ∈ name, isBlank c = false
  free : Pass.isReserved name = false

/-- A key that an entry can give to a value. -/
structure StoredKey (key : Text) : Prop where
  nonempty : key ≠ []
  unbroken : Unbroken key
  placed : ¬Key.autoIndex.isSuffixOf key

/-- The entries of a table of items that entries can give. -/
structure StoredItems (entries : List (Text × Text)) : Prop where
  distinct : Distinct entries
  key : ∀ entry ∈ entries, StoredKey entry.1
  value : ∀ entry ∈ entries, Tidy entry.2

/-- The entries of a table of macros that definitions can give. -/
structure DefinedMacros (entries : List (Text × Text)) : Prop where
  distinct : Distinct entries
  name : ∀ entry ∈ entries, MacroName entry.1

/-- A configuration that the loading of a source text can give. -/
structure Configuration.Loaded (config : Configuration) : Prop where
  settled : config.store = .ofItems config.store.items
  items : StoredItems config.store.items.entries
  macros : DefinedMacros config.macros.entries

def UnbrokenScope (scope : Option Text) : Prop :=
  ∀ name, scope = some name → Unbroken name

/-- A pass over a source text on the way to a loaded configuration. -/
structure Pass.Loaded (pass : Pass) : Prop where
  items : StoredItems pass.store.items.entries
  macros : DefinedMacros pass.macros.entries
  scope : UnbrokenScope pass.scope
  outer : ∀ block, .sectionBlock block ∈ pass.blocks → UnbrokenScope block.outerScope
  bases : ∀ queue ∈ pass.store.queues, Unbroken queue.base
  waiting : ∀ queue ∈ pass.store.queues, ∀ value ∈ queue.values, Tidy value

lemma mem_insert {table : Table} {name value : Text} {entry : Text × Text}
    (h : entry ∈ (table.insert name value).entries) :
    entry = (name, value) ∨ entry ∈ table.entries :=
  eq_or_mem_of_mem_place h

lemma StoredItems.insert {table : Table} (h : StoredItems table.entries) {key value : Text}
    (hkey : StoredKey key) (hvalue : Tidy value) : StoredItems (table.insert key value).entries where
  distinct := Table.distinct_insert h.distinct key value
  key entry hentry := by
    rcases mem_insert hentry with rfl | hentry
    · exact hkey
    · exact h.key entry hentry
  value entry hentry := by
    rcases mem_insert hentry with rfl | hentry
    · exact hvalue
    · exact h.value entry hentry

lemma DefinedMacros.insert {table : Table} (h : DefinedMacros table.entries) {name : Text}
    (hname : MacroName name) (value : Text) : DefinedMacros (table.insert name value).entries where
  distinct := Table.distinct_insert h.distinct name value
  name entry hentry := by
    rcases mem_insert hentry with rfl | hentry
    · exact hname
    · exact h.name entry hentry

lemma DefinedMacros.erase {table : Table} (h : DefinedMacros table.entries) (name : Text) :
    DefinedMacros (table.erase name).entries where
  distinct := Table.distinct_erase h.distinct name
  name entry hentry := h.name entry (List.mem_filter.1 hentry).1

namespace Key

lemma mem_of_mem_join {first second : Option Text} {key : Text}
    (h : join first second = some key) {c : Char} (hc : c ∈ key) :
    (∃ name, first = some name ∧ c ∈ name) ∨ (∃ name, second = some name ∧ c ∈ name) ∨ c = '.' := by
  have hfinal : ∀ name, c ∈ withoutFinalPeriod name → c ∈ name := by
    intro name hmem
    unfold withoutFinalPeriod at hmem
    split at hmem
    · exact List.mem_of_mem_dropLast hmem
    · exact hmem
  have hinitial : ∀ name, c ∈ withoutInitialPeriod name → c ∈ name := by
    intro name hmem
    unfold withoutInitialPeriod at hmem
    split at hmem
    · exact List.mem_cons_of_mem _ hmem
    · exact hmem
  cases first with
  | none =>
    cases second with
    | none => simp [join] at h
    | some b =>
      obtain rfl : withoutInitialPeriod b = key := by simpa [join] using h
      exact .inr (.inl ⟨b, rfl, hinitial b hc⟩)
  | some a =>
    cases second with
    | none =>
      simp only [join, Option.map_some, Option.map_none] at h
      split at h
      · cases h
      · obtain rfl := Option.some.inj h
        exact .inl ⟨a, rfl, hfinal a hc⟩
    | some b =>
      simp only [join, Option.map_some] at h
      split at h
      · obtain rfl := Option.some.inj h
        exact .inr (.inl ⟨b, rfl, hinitial b hc⟩)
      · split at h
        · obtain rfl := Option.some.inj h
          exact .inl ⟨a, rfl, hfinal a hc⟩
        · obtain rfl := Option.some.inj h
          rcases List.mem_append.1 hc with hc | hc
          · exact .inl ⟨a, rfl, hfinal a hc⟩
          · rcases List.mem_cons.1 hc with hc | hc
            · exact .inr (.inr hc)
            · exact .inr (.inl ⟨b, rfl, hinitial b hc⟩)

lemma unbroken_join {first second : Option Text} (hfirst : UnbrokenScope first)
    (hsecond : UnbrokenScope second) : UnbrokenScope (join first second) := by
  intro key hkey c hc
  rcases mem_of_mem_join hkey hc with ⟨name, hname, hmem⟩ | ⟨name, hname, hmem⟩ | rfl
  · exact hfirst name hname c hmem
  · exact hsecond name hname c hmem
  · rfl

lemma unbroken_qualify {scope : Option Text} {key : Text} (hscope : UnbrokenScope scope)
    (hkey : Unbroken key) : Unbroken (qualify scope key) := by
  have hsome : UnbrokenScope (some key) := by
    rintro _ ⟨⟩
    exact hkey
  have hjoin := unbroken_join hscope hsome
  unfold qualify
  split
  · exact hkey
  · rename_i heq
    exact hjoin _ heq
  · exact hkey

lemma qualify_ne_nil (scope : Option Text) {key : Text} (hkey : key ≠ []) :
    qualify scope key ≠ [] := by
  unfold qualify
  split
  · exact hkey
  · rename_i hfull _
    exact hfull
  · exact hkey

end Key

/-- The key of a position is a key that can be stored. -/
lemma storedKey_indexed {base : Text} (h : Unbroken base) (index : Nat) :
    StoredKey (Key.indexed base index) where
  nonempty := by simp [Key.indexed]
  unbroken := by
    have hdigits : Unbroken (Text.ofNat index) :=
      fun c hc => isLineBreak_of_isDigit (isDigit_of_mem_ofNat hc)
    refine List.forall_mem_append.2 ⟨List.forall_mem_append.2 ⟨h, ?_⟩, ?_⟩
    · exact List.forall_mem_cons.2 ⟨rfl, hdigits⟩
    · exact List.forall_mem_singleton.2 rfl
  placed := by
    intro hsuffix
    obtain ⟨before, hkey⟩ := List.isSuffixOf_iff_suffix.1 hsuffix
    have hcut : cutLastAt '[' (before ++ Key.autoIndex) = some (before, ['-', ']']) :=
      cutLastAt_append_cons (by decide) before
    rw [hkey, Key.cutLastAt_indexed] at hcut
    have hdigits : Text.ofNat index ++ [']'] = ['-', ']'] := (Prod.mk.inj (Option.some.inj hcut)).2
    have hminus : '-' ∈ Text.ofNat index := by
      have hmem : '-' ∈ Text.ofNat index ++ [']'] := by simp [hdigits]
      simpa using hmem
    exact absurd (isDigit_of_mem_ofNat hminus) (by decide)

lemma of_mem_enqueue {base value : Text} {queues : List Queue} {queue : Queue}
    (h : queue ∈ Store.enqueue base value queues) :
    (queue.base = base ∨ ∃ old ∈ queues, queue.base = old.base) ∧
      ∀ other ∈ queue.values, other = value ∨ ∃ old ∈ queues, other ∈ old.values := by
  induction queues with
  | nil =>
    obtain rfl := List.mem_singleton.1 h
    simp
  | cons first rest ih =>
    unfold Store.enqueue at h
    split at h
    · rcases List.mem_cons.1 h with rfl | h
      · refine ⟨.inr ⟨first, by simp, rfl⟩, fun other hother => ?_⟩
        rcases List.mem_append.1 hother with hother | hother
        · exact .inr ⟨first, by simp, hother⟩
        · exact .inl (List.mem_singleton.1 hother)
      · exact ⟨.inr ⟨queue, by simp [h], rfl⟩, fun other hother => .inr ⟨queue, by simp [h], hother⟩⟩
    · rcases List.mem_cons.1 h with rfl | h
      · exact ⟨.inr ⟨queue, by simp, rfl⟩, fun other hother => .inr ⟨queue, by simp, hother⟩⟩
      · obtain ⟨hbase, hvalues⟩ := ih h
        constructor
        · rcases hbase with hbase | ⟨old, hold, heq⟩
          · exact .inl hbase
          · exact .inr ⟨old, by simp [hold], heq⟩
        · intro other hother
          rcases hvalues other hother with hother | ⟨old, hold, hmem⟩
          · exact .inl hother
          · exact .inr ⟨old, by simp [hold], hmem⟩

namespace Pass

variable {pass next : Pass}

lemma Loaded.enter (h : pass.Loaded) {key value : Text} (hne : key ≠ []) (hkey : Unbroken key)
    (hvalue : Tidy value) : (pass.enter key value).Loaded := by
  have hfull : Unbroken (Key.qualify pass.scope key) := Key.unbroken_qualify h.scope hkey
  by_cases hauto : Key.autoIndex.isSuffixOf (Key.qualify pass.scope key)
  · have hbase : Unbroken ((Key.qualify pass.scope key).take
        ((Key.qualify pass.scope key).length - Key.autoIndex.length)) :=
      fun c hc => hfull c (List.mem_of_mem_take hc)
    simp only [Pass.enter, hauto, if_true]
    refine ⟨h.items, h.macros, h.scope, h.outer, fun queue hqueue => ?_, fun queue hqueue => ?_⟩
    · rcases (of_mem_enqueue hqueue).1 with heq | ⟨old, hold, heq⟩
      · rw [heq]
        exact hbase
      · rw [heq]
        exact h.bases old hold
    · intro other hother
      rcases (of_mem_enqueue hqueue).2 other hother with rfl | ⟨old, hold, hmem⟩
      · exact hvalue
      · exact h.waiting old hold other hmem
  · simp only [Pass.enter, hauto, Bool.false_eq_true, if_false]
    have hstored : StoredKey (Key.qualify pass.scope key) :=
      ⟨Key.qualify_ne_nil _ hne, hfull, hauto⟩
    exact ⟨h.items.insert hstored hvalue, h.macros, h.scope, h.outer, h.bases, h.waiting⟩

/-- A step that leaves the scope, the macros and the store and opens no section. -/
structure Keeps (pass next : Pass) : Prop where
  scope : next.scope = pass.scope
  macros : next.macros = pass.macros
  store : next.store = pass.store
  sections : ∀ block, .sectionBlock block ∈ next.blocks → .sectionBlock block ∈ pass.blocks

lemma Keeps.loaded (hkeeps : pass.Keeps next) (h : pass.Loaded) : next.Loaded where
  items := hkeeps.store ▸ h.items
  macros := hkeeps.macros ▸ h.macros
  scope := hkeeps.scope ▸ h.scope
  outer block hblock := h.outer block (hkeeps.sections block hblock)
  bases := hkeeps.store ▸ h.bases
  waiting := hkeeps.store ▸ h.waiting

lemma Keeps.refl (pass : Pass) : pass.Keeps pass :=
  ⟨rfl, rfl, rfl, fun _ h => h⟩

/-- Closing a block or turning to its next branch opens no section. -/
lemma keeps_of_blocks {blocks : List Block}
    (h : ∀ block, .sectionBlock block ∈ blocks → .sectionBlock block ∈ pass.blocks) :
    pass.Keeps { pass with blocks } :=
  ⟨rfl, rfl, rfl, h⟩

lemma keeps_beginElse (h : pass.beginElse = .ok next) : pass.Keeps next := by
  unfold beginElse at h
  split at h
  · rename_i heq
    split at h
    · cases h
    · cases h
      exact keeps_of_blocks (by simp [heq])
  · cases h

lemma keeps_endIf (h : pass.endIf = .ok next) : pass.Keeps next := by
  unfold endIf at h
  split at h
  · rename_i heq
    cases h
    exact keeps_of_blocks (by simp +contextual [heq])
  · cases h

lemma keeps_beginCase {label : Text} (h : pass.beginCase label = .ok next) : pass.Keeps next := by
  unfold beginCase at h
  split at h
  · rename_i heq
    split at h
    · cases h
    · cases h
      exact keeps_of_blocks (by simp [heq])
  · cases h

lemma keeps_beginDefault (h : pass.beginDefault = .ok next) : pass.Keeps next := by
  unfold beginDefault at h
  split at h
  · rename_i heq
    split at h
    · cases h
    · cases h
      exact keeps_of_blocks (by simp [heq])
  · cases h

lemma keeps_endSwitch (h : pass.endSwitch = .ok next) : pass.Keeps next := by
  unfold endSwitch at h
  split at h
  · rename_i heq
    cases h
    exact keeps_of_blocks (by simp +contextual [heq])
  · cases h

variable {external : Source Id} {line : Nat} {argument : Text}

lemma keeps_push_of_bind {α : Type} {value : ExceptT LoadError Id α} {block : α → Block}
    (hblock : ∀ a b, block a ≠ .sectionBlock b)
    (h : (value >>= fun a => pure (pass.push (block a))) = pure next) : pass.Keeps next := by
  obtain ⟨a, -, heq⟩ := bind_eq_pure_iff.1 h
  rw [← pure_inj heq]
  apply keeps_of_blocks
  intro b hb
  rcases List.mem_cons.1 hb with heq | hb
  · exact absurd heq.symm (hblock a b)
  · exact hb

lemma keeps_beginIf (h : pass.beginIf external line argument = pure next) : pass.Keeps next := by
  simp only [beginIf] at h
  split at h
  · exact keeps_push_of_bind (by simp) h
  · exact keeps_push_of_bind (by simp) h

lemma keeps_beginSwitch (h : pass.beginSwitch external line argument = pure next) :
    pass.Keeps next := by
  simp only [beginSwitch] at h
  split at h
  · exact absurd h throw_ne_pure
  · split at h
    · exact keeps_push_of_bind (by simp) h
    · exact keeps_push_of_bind (by simp) h

lemma of_definition {directive : Directive} {name text : Text}
    (h : definition directive argument = .ok (name, text)) :
    firstWord argument = some (name, text) ∧ MacroName name := by
  rw [definition] at h
  rcases firstWord_cases argument with ⟨-, hnone⟩ | ⟨-, word, rest, -, -, hword, hsolid, -, hsome⟩
  · rw [hnone] at h
    cases h
  · rw [hsome] at h
    dsimp only at h
    split at h
    · cases h
    · rename_i hfree
      cases h
      exact ⟨hsome, hword, hsolid, by simpa using hfree⟩

lemma of_checked {α : Type} {result : Except FormatCause α} {a : α}
    (h : checked (m := Id) line result = pure a) : result = .ok a := by
  cases result with
  | error cause => cases h
  | ok b => rw [pure_inj h]

lemma undefine_eq_pure (pass : Pass) (name : Text) :
    pass.undefine (m := Id) name = pure { pass with macros := pass.macros.erase name } := by
  unfold undefine
  split <;> rfl

/-- All that a directive with the given argument can do to a pass. -/
inductive Change (external : Source Id) (pass : Pass) (argument : Text) : Pass → Prop
  | keeps {next : Pass} (h : pass.Keeps next) : Change external pass argument next
  | define {name text : Text} (hword : firstWord argument = some (name, text))
      (hname : MacroName name) :
      Change external pass argument { pass with macros := pass.macros.insert name text }
  | set {name text expanded : Text} (hword : firstWord argument = some (name, text))
      (hname : MacroName name) (hexpanded : pass.expand external text = pure expanded) :
      Change external pass argument { pass with macros := pass.macros.insert name expanded }
  | undefine (name : Text) :
      Change external pass argument { pass with macros := pass.macros.erase name }
  | sectionBegin (block : SectionBlock) (houter : block.outerScope = pass.scope) :
      Change external pass argument
        { pass.push (.sectionBlock block) with scope := Key.join pass.scope (some argument) }
  | sectionEnd {block : SectionBlock} {rest : List Block}
      (hblocks : pass.blocks = .sectionBlock block :: rest) :
      Change external pass argument { pass with blocks := rest, scope := block.outerScope }

lemma change_of_beginSection (h : pass.beginSection line argument = .ok next) :
    Change external pass argument next := by
  unfold beginSection at h
  split at h
  · cases h
  · split at h
    · cases h
    · cases h
      exact .sectionBegin _ rfl

lemma change_of_endSection (h : pass.endSection = .ok next) :
    Change external pass argument next := by
  unfold endSection at h
  split at h
  · rename_i hblocks
    cases h
    exact .sectionEnd hblocks
  · cases h

lemma change_of_direct {word : Directive}
    (h : pass.direct external line argument word = pure next) :
    Change external pass argument next := by
  cases word with
  | define =>
    simp only [direct] at h
    split at h
    · exact .keeps (pure_inj h ▸ .refl pass)
    · obtain ⟨⟨name, text⟩, hdefinition, h⟩ := bind_eq_pure_iff.1 h
      obtain ⟨hword, hname⟩ := of_definition (of_checked hdefinition)
      cases h
      exact .define hword hname
  | set =>
    simp only [direct] at h
    split at h
    · exact .keeps (pure_inj h ▸ .refl pass)
    · obtain ⟨⟨name, text⟩, hdefinition, h⟩ := bind_eq_pure_iff.1 h
      obtain ⟨expanded, hexpanded, h⟩ := bind_eq_pure_iff.1 h
      obtain ⟨hword, hname⟩ := of_definition (of_checked hdefinition)
      cases h
      exact .set hword hname hexpanded
  | undefine =>
    simp only [direct] at h
    split at h
    · exact .keeps (pure_inj h ▸ .refl pass)
    · obtain ⟨⟨name, text⟩, -, h⟩ := bind_eq_pure_iff.1 h
      rw [undefine_eq_pure] at h
      cases h
      exact .undefine name
  | ifBegin => exact .keeps (keeps_beginIf h)
  | ifElse => exact .keeps (keeps_beginElse (of_checked h))
  | ifEnd => exact .keeps (keeps_endIf (of_checked h))
  | switchBegin => exact .keeps (keeps_beginSwitch h)
  | switchCase => exact .keeps (keeps_beginCase (of_checked h))
  | switchDefault => exact .keeps (keeps_beginDefault (of_checked h))
  | switchEnd => exact .keeps (keeps_endSwitch (of_checked h))
  | sectionBegin => exact change_of_beginSection (of_checked h)
  | sectionEnd => exact change_of_endSection (of_checked h)

/-- A directive leaves the store alone. -/
lemma Change.store (h : Change external pass argument next) : next.store = pass.store := by
  cases h with
  | keeps h => exact h.store
  | _ => rfl

lemma Loaded.change (h : pass.Loaded) (hargument : Unbroken argument)
    (hchange : Change external pass argument next) : next.Loaded := by
  cases hchange with
  | keeps hkeeps => exact hkeeps.loaded h
  | define hword hname =>
    exact ⟨h.items, h.macros.insert hname _, h.scope, h.outer, h.bases, h.waiting⟩
  | set hword hname hexpanded =>
    exact ⟨h.items, h.macros.insert hname _, h.scope, h.outer, h.bases, h.waiting⟩
  | undefine name =>
    exact ⟨h.items, h.macros.erase name, h.scope, h.outer, h.bases, h.waiting⟩
  | sectionBegin block houter =>
    have hsome : UnbrokenScope (some argument) := by
      rintro _ ⟨⟩
      exact hargument
    refine ⟨h.items, h.macros, Key.unbroken_join h.scope hsome, ?_, h.bases, h.waiting⟩
    intro other hother
    rcases List.mem_cons.1 hother with heq | hother
    · cases heq
      exact houter ▸ h.scope
    · exact h.outer other hother
  | sectionEnd hblocks =>
    refine ⟨h.items, h.macros, h.outer _ (by simp [hblocks]), ?_, h.bases, h.waiting⟩
    exact fun other hother => h.outer other (by simp [hblocks, hother])

lemma Loaded.step (h : pass.Loaded) {statement : Statement} (hreadable : statement.Readable)
    (heq : pass.step external line statement = pure next) : next.Loaded := by
  cases statement with
  | entry key value =>
    have heq := pure_inj heq
    split at heq
    · rwa [← heq]
    · rename_i hne
      rw [← heq]
      exact h.enter (by simp_all) hreadable.1 hreadable.2
  | directive word argument => exact h.change hreadable (change_of_direct heq)
  | unknown text => exact absurd heq throw_ne_pure

theorem Loaded.run (h : pass.Loaded) {statements : List (Nat × Statement)}
    (hreadable : ∀ numbered ∈ statements, numbered.2.Readable)
    (heq : Pass.run external statements pass = pure next) : next.Loaded := by
  induction statements generalizing pass with
  | nil => rwa [← pure_inj heq]
  | cons numbered rest ih =>
    obtain ⟨hfirst, hrest⟩ := List.forall_mem_cons.1 hreadable
    obtain ⟨middle, hstep, heq⟩ := bind_eq_pure_iff.1 heq
    exact ih (h.step hfirst hstep) hrest heq

/-- The values that waited for their positions are stored like the others. -/
lemma Loaded.merge (h : pass.Loaded) : StoredItems pass.store.merge.items.entries := by
  have hadmitted : ∀ pair ∈ pass.store.admitted, StoredKey pair.1 ∧ Tidy pair.2 := by
    intro pair hpair
    obtain ⟨queue, hqueue, hmem⟩ := List.mem_flatMap.1 (List.mem_filter.1 hpair).1
    obtain ⟨index, hvalue, hkey⟩ := Store.mem_positions.1 hmem
    rw [hkey]
    exact ⟨storedKey_indexed (h.bases queue hqueue) _,
      h.waiting queue hqueue _ (List.mem_of_getElem? hvalue)⟩
  have hfold : ∀ (pairs : List (Text × Text)) (table : Table), StoredItems table.entries →
      (∀ pair ∈ pairs, StoredKey pair.1 ∧ Tidy pair.2) →
        StoredItems (pairs.foldl (fun table pair => table.insert pair.1 pair.2) table).entries := by
    intro pairs
    induction pairs with
    | nil => exact fun _ htable _ => htable
    | cons pair rest ih =>
      intro table htable hpairs
      obtain ⟨⟨hkey, hvalue⟩, hrest⟩ := List.forall_mem_cons.1 hpairs
      exact ih _ (htable.insert hkey hvalue) hrest
  exact hfold _ _ h.items hadmitted

lemma eq_of_finish (h : ExceptT.mk (m := Id) (pure pass.finish) = pure next) :
    next = { pass with store := pass.store.merge } := by
  have h : pass.finish = .ok next := h
  unfold finish at h
  split at h
  · cases h
    rfl
  · cases h

end Pass

/-- What is loaded into an empty configuration comes from a pass over the statements. -/
lemma Configuration.exists_run_of_load {external : Source Id} {text : Text}
    {config : Configuration} (h : Configuration.load {} external text = pure config) :
    ∃ pass, Pass.run external (statements text) {} = pure pass ∧
      config = { store := pass.store.merge, macros := pass.macros } := by
  rw [Configuration.load] at h
  obtain ⟨⟨store, macros⟩, hprocess, h⟩ := bind_eq_pure_iff.1 h
  rw [process] at hprocess
  obtain ⟨pass, hrun, hprocess⟩ := bind_eq_pure_iff.1 hprocess
  obtain ⟨finished, hfinish, hprocess⟩ := bind_eq_pure_iff.1 hprocess
  obtain ⟨-, -, hprocess⟩ := bind_eq_pure_iff.1 hprocess
  obtain ⟨-, -, hprocess⟩ := bind_eq_pure_iff.1 hprocess
  obtain ⟨-, -, h⟩ := bind_eq_pure_iff.1 h
  obtain ⟨rfl, rfl⟩ := Prod.mk.inj (pure_inj hprocess)
  refine ⟨pass, hrun, ?_⟩
  rw [← pure_inj h, Pass.eq_of_finish hfinish]
  rfl

/-- What is loaded into an empty configuration is a loaded configuration. -/
theorem Configuration.loaded_of_load {external : Source Id} {text : Text} {config : Configuration}
    (h : Configuration.load {} external text = pure config) : config.Loaded := by
  obtain ⟨pass, hrun, rfl⟩ := Configuration.exists_run_of_load h
  have hpass : pass.Loaded := by
    refine Pass.Loaded.run ?_ (fun _ hmem => readable_of_mem_statements hmem) hrun
    refine ⟨⟨.nil, ?_, ?_⟩, ⟨.nil, ?_⟩, ?_, ?_, ?_, ?_⟩ <;> simp [UnbrokenScope]
  exact ⟨rfl, hpass.merge, hpass.macros⟩

end Keyfile
