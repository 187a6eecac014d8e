import Keyfile.Proofs.Parts
import Keyfile.Proofs.SavedFile

/-!
# Saving and loading again

A configuration that was loaded from a source text, saved to a file and loaded from the file is the
same when all of it is legible. Not all that can be loaded is legible: a key takes over whatever the
names of its sections hold, and a macro can be set to a text of several lines.
-/

namespace Keyfile

namespace Surrounded

/-- Of a configuration that was loaded into an empty one the saved form is read line by line exactly
when the configuration is legible, and exactly then each of its parts comes back on its own. A
legible configuration comes back from its file as a whole, its keys and macros in their order. -/
theorem save_loadFile {loader loaded reader : Surrounded} {text : Text} {before between : World}
    (hempty : loader.config = {}) (hoff : loader.usesEnvironment = false)
    (hload : (loader.load text).run.run before = (.ok loaded, between))
    (hreader : reader.config = {}) :
    (said (statements (loaded.config.saved none)) = loaded.config.meant ↔ loaded.config.Legible) ∧
      ((∀ part ∈ loaded.config.parts, part.Reloads) ↔ loaded.config.Legible) ∧
      (loaded.config.Legible → ∀ (world : World) (path : Path), world.files.Writable path →
        world.RecordsApart (.textWritten (Session.pathText path)) path →
          ∃ saved after, (loaded.save none path).run.run world = (.ok (), saved) ∧
            (reader.loadFile path).run.run saved =
              (.ok { reader with config := loaded.config }, after)) := by
  have hconfig := load_eq_of_run hoff hload
  rw [hempty] at hconfig
  have hloaded := Configuration.loaded_of_load hconfig
  refine ⟨hloaded.said_saved_iff, hloaded.reloads_parts_iff, ?_⟩
  intro hlegible world path hwritable hloggers
  refine exists_run_save_loadFile loaded reader ?_ hwritable hloggers
  rw [hreader]
  exact hloaded.follows_load_saved hlegible _

/-- A macro with a reference to it, a value of two lines in a section, and an array. -/
def siteText : Text :=
  Text.join ['\n'] (["#define site http://foo.com", "uri = $(site)/x", "#section s",
    "multi = \x7b\x7b", "  line1", "  line2", "\x7d\x7d", "#endsection", "a[-] = 1",
    "a[-] = 2"].map String.toList)

def siteConfiguration : Configuration where
  macros := ⟨[("site".toList, "http://foo.com".toList)]⟩
  store := .ofItems ⟨[("uri".toList, "$(site)/x".toList),
    ("s.multi".toList, "line1\r\nline2".toList), ("a[0]".toList, ['1']), ("a[1]".toList, ['2'])]⟩

lemma writable_conf : FileTree.Writable {} ["conf".toList] :=
  ⟨⟨false, by decide +kernel⟩, by decide +kernel, by decide +kernel, by decide +kernel⟩

lemma recordsApart_conf :
    World.RecordsApart { machine := default } (.textWritten (Session.pathText ["conf".toList]))
      ["conf".toList] where
  handlers := by rintro _ ⟨⟩
  streams := by rintro number stream place ⟨⟩

theorem save_loadFile_siteConfiguration :
    ∃ saved after,
      (save { config := siteConfiguration, usesEnvironment := false } none ["conf".toList]).run.run
        { machine := default } = (.ok (), saved) ∧
      (loadFile {} ["conf".toList]).run.run saved = (.ok { config := siteConfiguration }, after) := by
  have hsite : Configuration.load {} .silent siteText =
      (pure siteConfiguration : ExceptT LoadError Id Configuration) := by decide +kernel
  obtain ⟨between, hload⟩ : ∃ between,
      (load { usesEnvironment := false } siteText).run.run { machine := default } =
        (.ok { config := siteConfiguration, usesEnvironment := false }, between) :=
    load_returns { usesEnvironment := false }
      (follows_load_silent { usesEnvironment := false } rfl hsite) _
  obtain ⟨hlines, -, hback⟩ :=
    save_loadFile rfl rfl hload (rfl : ({} : Surrounded).config = {})
  exact hback (hlines.1 (by decide +kernel)) _ _ writable_conf recordsApart_conf

/-- A section whose name holds an equals sign. -/
def dividedText : Text :=
  Text.join ['\n'] (["#section a=b", "k = v", "#endsection"].map String.toList)

def single (key value : Text) : Configuration where
  store := .ofItems ⟨[(key, value)]⟩

/-- The key takes over the equals sign, and its line is read as that of another key. -/
theorem loadFile_dividedText_ne :
    ∃ between saved after,
      (load { usesEnvironment := false } dividedText).run.run { machine := default } =
        (.ok { config := single "a=b.k".toList ['v'], usesEnvironment := false }, between) ∧
      (save { config := single "a=b.k".toList ['v'], usesEnvironment := false } none
        ["conf".toList]).run.run { machine := default } = (.ok (), saved) ∧
      (loadFile { usesEnvironment := false } ["conf".toList]).run.run saved =
        (.ok { config := single ['a'] "b.k = v".toList, usesEnvironment := false }, after) ∧
      single "a=b.k".toList ['v'] ≠ single ['a'] "b.k = v".toList := by
  have hdivided : Configuration.load {} .silent dividedText =
      (pure (single "a=b.k".toList ['v']) : ExceptT LoadError Id Configuration) := by
    decide +kernel
  have hmisread : Configuration.load {} .silent
      (Text.normalizeNewlines ((single "a=b.k".toList ['v']).saved none)) =
        (pure (single ['a'] "b.k = v".toList) : ExceptT LoadError Id Configuration) := by
    decide +kernel
  obtain ⟨between, hload⟩ : ∃ between,
      (load { usesEnvironment := false } dividedText).run.run { machine := default } =
        (.ok { config := single "a=b.k".toList ['v'], usesEnvironment := false }, between) :=
    load_returns { usesEnvironment := false }
      (follows_load_silent { usesEnvironment := false } rfl hdivided) _
  obtain ⟨saved, after, hsave, hreload⟩ : ∃ saved after,
      (save { config := single "a=b.k".toList ['v'], usesEnvironment := false } none
        ["conf".toList]).run.run { machine := default } = (.ok (), saved) ∧
      (loadFile { usesEnvironment := false } ["conf".toList]).run.run saved =
        (.ok { config := single ['a'] "b.k = v".toList, usesEnvironment := false }, after) :=
    exists_run_save_loadFile { config := single "a=b.k".toList ['v'], usesEnvironment := false }
      { usesEnvironment := false }
      (follows_load_silent { usesEnvironment := false } rfl hmisread) writable_conf recordsApart_conf
  exact ⟨between, saved, after, hload, hsave, hreload, by decide +kernel⟩

end Surrounded

end Keyfile
