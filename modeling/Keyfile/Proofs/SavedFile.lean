import Keyfile.Proofs.LoggedFiles
import Keyfile.Proofs.SessionLoading
import Keyfile.Proofs.Utf8

/-!
# Files that are written and read again

In a world whose files can take it, writing a text returns, and reading the file gives the text with
its line breaks made line feeds. The loggers have a part in this: their handlers write to files too,
and one that took the record of the writing could write to the very file.
-/

namespace Keyfile

namespace World

/-- The handlers that take the record of an event leave a path alone, and each stream that has a
path is at a file. -/
structure RecordsApart (world : World) (event : Event) (path : Path) : Prop where
  handlers : ∀ handler ∈ world.loggers.handlersFor event.toRecord, ¬handler.target.Touches path
  streams : world.streams.AtFiles world.files

end World

namespace Session

lemma run_readText {world : World} {path : Path} {text : Text}
    (h : world.files.get? path = some (.file (text.flatMap Encoding.utf8Bytes))) :
    (readText path).run.run world = (.ok (Text.normalizeNewlines text), world) := by
  have hread : (readBytes path).run.run world = (.ok (text.flatMap Encoding.utf8Bytes), world) := by
    have hbytes : world.files.read path = .ok (text.flatMap Encoding.utf8Bytes) := by
      rw [FileTree.read, h]
    change ((Except.mapError Failure.file (world.files.read path)), world) = _
    rw [hbytes]
    rfl
  rw [readText, run_bind_of_ok hread, Encoding.decode?_utf8]
  rfl

/-- What a write leaves: the file has its contents, and above it only directories were made. -/
structure Wrote (before after : FileTree) (path : Path) (content : Bytes) : Prop where
  node : after.get? path = some (.file content)
  above : ∀ place : Path, place.length < path.length →
    after.get? place = (before.makeDirectories path.parent).1.get? place

/-- Where everything stands in a directory, so does what was written. -/
lemma Wrote.directory {before after : FileTree} {path place : Path} {content : Bytes}
    (h : Wrote before after path content) (hsound : before.Sound)
    (hparent : (before.makeDirectories path.parent).2 = .ok ()) (hplace : place <+: path)
    (hne : place ≠ path) : after.get? place = some .directory := by
  have hshorter : place.length < path.length :=
    lt_of_le_of_ne hplace.length_le fun heq => hne (hplace.eq_of_length heq)
  have hmade : before.makeDirectories path.parent = (_, .ok ()) := Prod.ext rfl hparent
  rw [h.above place hshorter]
  exact FileTree.directory_makeDirectories hsound hmade (FileTree.prefix_parent hplace hne)

/-- Replacing gives the file of a writable path its contents, and the streams go along with the
temporary file. -/
lemma exists_run_replaceFile {world : World} {path : Path} (h : world.files.Writable path)
    (content : Bytes) :
    ∃ files, (replaceFile ⟨path, content, none⟩).run.run world =
        (.ok (), { world with
          files
          streams := world.streams.follow world.files
            (Replacement.temporary world.files path) path }) ∧
      Wrote world.files files path content := by
  obtain ⟨files, hrun, hmoves, hfile, habove⟩ := Replacement.run_of_writable h content
  refine ⟨files, ?_, hfile, habove⟩
  have hget : (get : Session World).run.run world = (.ok world, world) := rfl
  rw [replaceFile, run_bind_of_ok hget, hrun, hmoves]
  rfl

/-- Writing a text to a writable path replaces its file by the bytes of the text and records it. -/
lemma exists_run_writeText_deliver {world : World} {path : Path} (h : world.files.Writable path)
    (text : Text) :
    ∃ files, (writeText path text).run.run world =
        (.ok (), World.deliver { world with
          files
          streams := world.streams.follow world.files
            (Replacement.temporary world.files path) path }
          (Event.textWritten (pathText path)).toRecord) ∧
      Wrote world.files files path (text.flatMap Encoding.utf8Bytes) := by
  obtain ⟨there, hthere⟩ := h.askable
  obtain ⟨files, hreplace, hwrote⟩ := exists_run_replaceFile h (text.flatMap Encoding.utf8Bytes)
  have hholds : (holds path).run.run world = (.ok there, world) := by
    change ((Except.mapError Failure.file (world.files.holds path)), world) = _
    rw [hthere]
    rfl
  refine ⟨files, ?_, hwrote⟩
  rw [writeText, run_bind_of_ok hholds]
  simp only [Bool.not_true, Bool.and_false, Bool.false_eq_true, if_false, Encoding.encode?_utf8]
  rw [run_bind_of_ok hreplace]
  rfl

/-- A text that was written to a writable path is there. -/
theorem exists_run_writeText {world : World} {path : Path} (h : world.files.Writable path)
    (hloggers : world.RecordsApart (.textWritten (pathText path)) path) (text : Text) :
    ∃ after, (writeText path text).run.run world = (.ok (), after) ∧
      after.files.get? path = some (.file (text.flatMap Encoding.utf8Bytes)) := by
  obtain ⟨files, hwrite, hwrote⟩ := exists_run_writeText_deliver h text
  refine ⟨_, hwrite, ?_⟩
  have hne := Replacement.temporary_ne world.files (FileTree.ne_nil_of_get? h.free)
  have havoids : (world.streams.follow world.files (Replacement.temporary world.files path)
      path).Avoids path :=
    hloggers.streams.avoids_follow (Replacement.get?_temporary world.files path) hne
  have hspares : Log.Output.Spares ⟨files, _, world.console⟩ path
      (some (.file (text.flatMap Encoding.utf8Bytes))) := ⟨hwrote.node, havoids⟩
  exact (hspares.deliver hloggers.handlers world.machine.time).node

end Session

namespace Surrounded

/-- Loading a file loads its text with the line breaks made line feeds. -/
lemma exists_run_loadFile {reader : Surrounded} {world : World} {path : Path} {text : Text}
    {config : Configuration}
    (hfile : world.files.get? path = some (.file (text.flatMap Encoding.utf8Bytes)))
    (hload : Follows (reader.config.load reader.external (Text.normalizeNewlines text))
      (pure config)) :
    ∃ after, (reader.loadFile path).run.run world = (.ok { reader with config }, after) := by
  have hreturns : (do
      let loaded ← reader.load (Text.normalizeNewlines text)
      Journal.record (.fileLoaded (Session.pathText path))
      return loaded : Session Surrounded).Returns { reader with config } :=
    (load_returns reader hload).bind ((Session.returns_record _).bind (Session.returns_pure _))
  obtain ⟨after, hafter⟩ := hreturns world
  exact ⟨after, by rw [loadFile, Session.run_bind_of_ok (Session.run_readText hfile), hafter]⟩

/-- A configuration that is saved to a writable path is loaded as what its saved form says. -/
theorem exists_run_save_loadFile (saver reader : Surrounded) {config : Configuration}
    (hload : Follows (reader.config.load reader.external
      (Text.normalizeNewlines (saver.config.saved none))) (pure config))
    {world : World} {path : Path} (hwritable : world.files.Writable path)
    (hloggers : world.RecordsApart (.textWritten (Session.pathText path)) path) :
    ∃ saved after, (saver.save none path).run.run world = (.ok (), saved) ∧
      (reader.loadFile path).run.run saved = (.ok { reader with config }, after) := by
  obtain ⟨saved, hsave, hfile⟩ :=
    Session.exists_run_writeText hwritable hloggers (saver.config.saved none)
  obtain ⟨after, hafter⟩ := exists_run_loadFile hfile hload
  exact ⟨saved, after, hsave, hafter⟩

end Surrounded

end Keyfile
