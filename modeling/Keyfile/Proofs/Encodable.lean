import Keyfile.Proofs.Built
import Keyfile.Proofs.Reloading
import Keyfile.Proofs.SavedFile

/-!
# What the saved form can hold

The saved form holds more than what loading gives. However a configuration was built, it comes back
from its file when its keys, its values and its macros are encodable, which can be seen from their
characters alone.
-/

namespace Keyfile

open Text

/-- The texts that a line must not begin with when it is to begin with a key. -/
def markedStarts : List Text :=
  [['#'], ['/', '/'], ['-', '-'], ['<'], ['.']]

structure EncodableKey (key : Text) : Prop where
  nonempty : key ≠ []
  trimmed : trim key = key
  no_equals : '=' ∉ key
  unbroken : Unbroken key
  unmarked : ∀ start ∈ markedStarts, ¬start <+: key
  placed : ¬Key.autoIndex <:+ key

instance (key : Text) : Decidable (EncodableKey key) :=
  decidable_of_iff (key ≠ [] ∧ trim key = key ∧ '=' ∉ key ∧ Unbroken key ∧
      (∀ start ∈ markedStarts, ¬start <+: key) ∧ ¬Key.autoIndex <:+ key)
    ⟨fun ⟨hne, htrimmed, hequals, hunbroken, hstart, hplaced⟩ =>
      ⟨hne, htrimmed, hequals, hunbroken, hstart, hplaced⟩,
    fun h => ⟨h.nonempty, h.trimmed, h.no_equals, h.unbroken, h.unmarked, h.placed⟩⟩

/-- A value is a single line, or is made of at least two lines of which the first and the last are
not empty. -/
inductive EncodableValue : Text → Prop
  | line {value : Text} (hunbroken : Unbroken value) (htrimmed : trim value = value)
      (hstart : ¬blockStart <+: value) : EncodableValue value
  | lines {parts : List Text} (hlength : 2 ≤ parts.length)
      (hunbroken : ∀ part ∈ parts, Unbroken part) (htrimmed : ∀ part ∈ parts, trim part = part)
      (hend : ∀ part ∈ parts, ¬blockEnd <+: part) (hfirst : parts.head? ≠ some [])
      (hlast : parts.getLast? ≠ some []) : EncodableValue (join crlf parts)

/-- A macro has a name of one word that can be defined, and a text of one line. -/
structure EncodableMacro (definition : Text × Text) : Prop where
  nonempty : definition.1 ≠ []
  solid : ∀ c ∈ definition.1, isBlank c = false
  free : ∀ reserved ∈ ["true".toList, "false".toList], lower definition.1 ≠ reserved
  trimmed : trim definition.2 = definition.2
  unbroken : Unbroken definition.2

instance (definition : Text × Text) : Decidable (EncodableMacro definition) :=
  decidable_of_iff (definition.1 ≠ [] ∧ (definition.1.all fun c => !isBlank c) = true ∧
      (∀ reserved ∈ ["true".toList, "false".toList], lower definition.1 ≠ reserved) ∧
      trim definition.2 = definition.2 ∧ Unbroken definition.2)
    ⟨fun ⟨hne, hsolid, hfree, htrimmed, hunbroken⟩ =>
      ⟨hne, by simpa using hsolid, hfree, htrimmed, hunbroken⟩,
    fun h => ⟨h.nonempty, by simpa using h.solid, h.free, h.trimmed, h.unbroken⟩⟩

structure Configuration.Encodable (config : Configuration) : Prop where
  key : ∀ entry ∈ config.store.items.entries, EncodableKey entry.1
  value : ∀ entry ∈ config.store.items.entries, EncodableValue entry.2
  definition : ∀ definition ∈ config.macros.entries, EncodableMacro definition

namespace EncodableKey

variable {key : Text} (h : EncodableKey key)
include h

lemma storedKey : StoredKey key where
  nonempty := h.nonempty
  unbroken := h.unbroken
  placed := by
    rw [List.isSuffixOf_iff_suffix]
    exact h.placed

lemma legible : LegibleKey key where
  trimmed := h.trimmed
  outermost := by
    rcases Key.qualify_none_cases key with heq | ⟨rest, rfl, -⟩
    · exact heq
    · exact absurd (List.prefix_append ['.'] rest) (h.unmarked ['.'] (by decide))
  no_equals := h.no_equals
  no_sign := by
    intro hhead
    obtain ⟨rest, rfl⟩ := List.head?_eq_some_iff.1 hhead
    exact h.unmarked ['#'] (by decide) (List.prefix_append ['#'] rest)
  no_comment := by
    rw [Bool.eq_false_iff]
    intro hcomment
    simp only [isComment, Bool.or_eq_true, List.isPrefixOf_iff_prefix] at hcomment
    rcases hcomment with (hcomment | hcomment) | hcomment
    · exact h.unmarked _ (by decide) hcomment
    · exact h.unmarked _ (by decide) hcomment
    · exact h.unmarked _ (by decide) hcomment

end EncodableKey

namespace EncodableMacro

variable {definition : Text × Text} (h : EncodableMacro definition)
include h

lemma macroName : MacroName definition.1 where
  nonempty := h.nonempty
  solid := h.solid
  free := by
    have htrue := h.free "true".toList (by simp)
    have hfalse := h.free "false".toList (by simp)
    unfold Pass.isReserved
    rw [Bool.or_eq_false_iff, beq_eq_false_iff_ne, beq_eq_false_iff_ne]
    exact ⟨htrue, hfalse⟩

lemma legible : LegibleText definition.2 where
  trimmed := h.trimmed
  unbroken := h.unbroken

end EncodableMacro

/-- Lines of which neither the first nor the last is empty are not trimmed away. -/
lemma trim_join_of_ends {parts : List Text} (htrimmed : ∀ part ∈ parts, trim part = part)
    (hfirst : parts.head? ≠ some []) (hlast : parts.getLast? ≠ some []) :
    trim (join crlf parts) = join crlf parts := by
  have hstart : trimStart (join crlf parts) = join crlf parts := by
    match parts, htrimmed, hfirst with
    | [], _, _ => rfl
    | [] :: _, _, hfirst => exact absurd rfl hfirst
    | (c :: rest) :: others, htrimmed, _ =>
      have hc : isBlank c = false := isBlank_of_trim_eq_cons (htrimmed _ List.mem_cons_self)
      cases others with
      | nil => simp [join, trimStart, hc]
      | cons second others => simp [join, trimStart, hc]
  have hend : trimEnd (join crlf parts) = join crlf parts := by
    rcases List.eq_nil_or_concat parts with rfl | ⟨before, last, rfl⟩
    · rfl
    · have hne : last ≠ [] := by simpa using hlast
      have htrim : trim last = last := htrimmed last (by simp)
      by_cases hbefore : before = []
      · subst hbefore
        exact trimEnd_eq_self htrim
      · rw [List.concat_eq_append, join_append_singleton hbefore,
          trimEnd_append_of_trim htrim hne]
  rw [trim, hstart, hend]

lemma isMultiline_of_unbroken {value : Text} (h : Unbroken value) : isMultiline value = false := by
  rw [isMultiline, List.any_eq_false]
  intro c hc hbreak
  have hsolid := h c hc
  rcases (by simpa using hbreak : c = '\r' ∨ c = '\n') with rfl | rfl <;> cases hsolid

lemma isMultiline_join {parts : List Text} (hlength : 2 ≤ parts.length) :
    isMultiline (join crlf parts) = true := by
  match parts, hlength with
  | first :: second :: others, _ =>
    rw [join_cons_cons]
    simp [isMultiline, crlf]

namespace EncodableValue

variable {value : Text}

lemma tidy (h : EncodableValue value) : Tidy value := by
  cases h with
  | line hunbroken htrimmed hstart =>
    rw [← htrimmed]
    exact tidy_trim hunbroken
  | lines hlength hunbroken htrimmed hend hfirst hlast =>
    rw [← trim_join_of_ends htrimmed hfirst hlast]
    apply tidy_trim_join hunbroken htrimmed
    intro part hpart
    rw [List.isPrefixOf_iff_prefix]
    exact hend part (List.mem_of_mem_tail hpart)

lemma legible (h : EncodableValue value) : LegibleValue value := by
  have htidy := h.tidy
  unfold LegibleValue
  cases h with
  | line hunbroken htrimmed hstart =>
    rw [isMultiline_of_unbroken hunbroken, if_neg Bool.false_ne_true, List.isPrefixOf_iff_prefix]
    exact hstart
  | @lines parts hlength hunbroken htrimmed hend hfirst hlast =>
    have hmulti := isMultiline_join hlength
    obtain ⟨first, others, hlines, hbegins⟩ := htidy.exists_first hmulti
    rw [lines_join_crlf hunbroken hlast] at hlines
    rw [hmulti, if_pos rfl, ← hbegins, List.isPrefixOf_iff_prefix]
    exact hend first (by simp [hlines])

end EncodableValue

namespace Configuration

variable {config : Configuration}

/-- The configuration without what waits for the next merge. -/
def settle (config : Configuration) : Configuration :=
  { config with store := .ofItems config.store.items }

lemma Built.loaded_settle (h : config.Built) (hencodable : config.Encodable) :
    config.settle.Loaded where
  settled := rfl
  items :=
    ⟨h.distincts.items, fun entry hentry => (hencodable.key entry hentry).storedKey,
      fun entry hentry => (hencodable.value entry hentry).tidy⟩
  macros := ⟨h.distincts.macros, fun entry hentry => (hencodable.definition entry hentry).macroName⟩

lemma Encodable.legible_settle (h : config.Encodable) : config.settle.Legible where
  text definition hdefinition := (h.definition definition hdefinition).legible
  key entry hentry := (h.key entry hentry).legible
  value entry hentry := (h.value entry hentry).legible

end Configuration

namespace Surrounded

/-- However a configuration was built, it comes back from its file when it is encodable: the same
macros and the same keys with the same values, in the same order. -/
theorem save_loadFile_of_built {saver reader : Surrounded} (hbuilt : saver.config.Built)
    (hencodable : saver.config.Encodable) (hreader : reader.config = {}) {world : World}
    {path : Path} (hwritable : world.files.Writable path)
    (hloggers : world.RecordsApart (.textWritten (Session.pathText path)) path) :
    ∃ saved after loaded, (saver.save none path).run.run world = (.ok (), saved) ∧
      (reader.loadFile path).run.run saved = (.ok loaded, after) ∧
      loaded.config.store = .ofItems saver.config.store.items ∧
      loaded.config.macros = saver.config.macros := by
  have hload : Follows (reader.config.load reader.external
      (Text.normalizeNewlines (saver.config.saved none))) (pure saver.config.settle) := by
    rw [hreader]
    exact (hbuilt.loaded_settle hencodable).follows_load_saved hencodable.legible_settle _
  obtain ⟨saved, after, hsave, hback⟩ :=
    exists_run_save_loadFile saver reader hload hwritable hloggers
  exact ⟨saved, after, _, hsave, hback, rfl, rfl⟩

def portConfiguration : Configuration where
  store := .ofItems ⟨[("port".toList, "80".toList)]⟩

/-- A key that was loaded, a value of three lines that was written through a view, and a macro that
was defined afterwards. -/
def mixedConfiguration : Configuration :=
  (portConfiguration.set (some "web".toList) "hint".toList "one\r\n\r\nthree".toList).define
    "host".toList "%node%.example".toList

lemma built_mixedConfiguration : mixedConfiguration.Built := by
  have hrun :
      (Configuration.load {} (Environment.source {}) "port = 80".toList).run.run.run default =
        (.ok (.ok portConfiguration), default) := by rfl
  exact ((Configuration.Built.empty.load hrun).set _ _ _).define _ _

lemma encodable_mixedConfiguration : mixedConfiguration.Encodable := by
  have hentries : mixedConfiguration.store.items.entries = [("port".toList, "80".toList),
      ("web.hint".toList, join crlf ["one".toList, [], "three".toList])] := by decide +kernel
  have hmacros : mixedConfiguration.macros.entries =
      [("host".toList, "%node%.example".toList)] := by decide +kernel
  constructor
  · rw [hentries]
    decide +kernel
  · rw [hentries, List.forall_mem_cons, List.forall_mem_singleton]
    constructor
    · exact .line (by decide +kernel) (by decide +kernel) (by decide +kernel)
    · exact .lines (by decide) (by decide +kernel) (by decide +kernel) (by decide +kernel)
        (by decide) (by decide)
  · rw [hmacros]
    decide +kernel

theorem save_loadFile_mixedConfiguration :
    ∃ saved after loaded,
      (save { config := mixedConfiguration } none ["conf".toList]).run.run { machine := default } =
        (.ok (), saved) ∧
      (loadFile {} ["conf".toList]).run.run saved = (.ok loaded, after) ∧
      loaded.config.store = .ofItems mixedConfiguration.store.items ∧
      loaded.config.macros = mixedConfiguration.macros := by
  have hwritable : FileTree.Writable {} ["conf".toList] :=
    ⟨⟨false, by decide +kernel⟩, by decide +kernel, by decide +kernel, by decide +kernel⟩
  have hloggers : World.RecordsApart { machine := default }
      (.textWritten (Session.pathText ["conf".toList])) ["conf".toList] :=
    ⟨by rintro _ ⟨⟩, by rintro number stream place ⟨⟩⟩
  have hreader : ({} : Surrounded).config = {} := rfl
  exact save_loadFile_of_built built_mixedConfiguration encodable_mixedConfiguration hreader
    hwritable hloggers

end Surrounded

end Keyfile
