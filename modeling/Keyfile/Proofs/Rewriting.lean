import Keyfile.Proofs.Backups
import Keyfile.Proofs.Results
import Keyfile.Proofs.Undisturbed
import Mathlib.Logic.Relation

/-!
# Rewriting a template file

However often a template file is rewritten and restored, and wherever a rewriting stops, the
original contents stand under the file's own path while there is no backup, or else in the backup.
So restoring always brings them back, and a rewriting that returns always renders them.
-/

namespace Keyfile

namespace Log.Streams

variable {streams : Streams} {path source target : Path}

/-- A move between paths of one length opens no stream beside them. -/
lemma Avoids.follow_beside (h : streams.Avoids path) (hsource : streams.Avoids source)
    (htarget : target.length = path.length) (files : FileTree) :
    (streams.follow files source target).Avoids path := by
  refine h.follow_of_source (fun below hpath => ?_) files
  have hlengths := congrArg List.length hpath
  rw [List.length_append] at hlengths
  obtain rfl : below = [] := List.length_eq_zero_iff.1 (by omega)
  rwa [List.append_nil]

end Log.Streams

/-- Logging keeps away from the paths of a file: no handler that takes the record of an event
touches one of them, and no stream is open on one. -/
structure World.Apart (path : Path) (world : World) : Prop where
  handlers : ∀ event : Event, ∀ handler ∈ world.loggers.handlersFor event.toRecord,
    ∀ own, path.Own own → ¬handler.target.Touches own
  streams : ∀ own, path.Own own → world.streams.Avoids own

/-- What stands under the paths of a file is the same in two worlds, and logging keeps away from
them in the second one. -/
structure World.Agrees (path : Path) (before after : World) : Prop where
  apart : after.Apart path
  node : ∀ own, path.Own own → after.files.get? own = before.files.get? own

namespace World

variable {path : Path} {world before after : World}

/-- A world that keeps no journal keeps away from every file. -/
lemma apart_of_silent (hloggers : world.loggers = []) (hstreams : world.streams = {}) :
    world.Apart path :=
  have hquiet : world.Undisturbed path.Own := undisturbed_of_silent hloggers hstreams
  ⟨hquiet.handlers, hquiet.streams⟩

lemma Apart.agrees (h : world.Apart path) : Agrees path world world :=
  ⟨h, fun _ _ => rfl⟩

lemma Agrees.original {original : Bytes} (hagrees : Agrees path before after)
    (h : before.files.Original path original) : after.files.Original path original :=
  h.congr (hagrees.node path .target) (hagrees.node path.backup .backup)

lemma Agrees.backedUp {original : Bytes} (hagrees : Agrees path before after)
    (h : before.files.BackedUp path original) : after.files.BackedUp path original :=
  h.congr (hagrees.node path .target) (hagrees.node path.backup .backup)

lemma Agrees.kept {original : Bytes} (hagrees : Agrees path before after)
    (h : before.files.Kept path original) : after.files.Kept path original :=
  h.imp hagrees.original hagrees.backedUp

lemma Agrees.replaced {original content : Bytes} (hagrees : Agrees path before after)
    (h : Replacement.Replaced path original content before.files) :
    Replacement.Replaced path original content after.files :=
  ⟨hagrees.backedUp h.1, (hagrees.node path .target).trans h.2⟩

lemma Apart.deliver (h : world.Apart path) (event : Event) :
    Agrees path world (world.deliver event.toRecord) := by
  have hquiet : world.Undisturbed path.Own := ⟨h.handlers, h.streams⟩
  have hshows := hquiet.shows.deliver event
  exact ⟨⟨h.handlers, hshows.undisturbed.streams⟩, hshows.node⟩

end World

/-- A session that only keeps the journal leaves what stands under the paths of a file. -/
lemma Session.Tells.agrees {α : Type} {path : Path} {world : World} {x : Session α}
    (h : x.Tells path.Own) (hworld : world.Apart path) :
    x.Ends world fun _ after => World.Agrees path world after := by
  have hquiet : world.Undisturbed path.Own := ⟨hworld.handlers, hworld.streams⟩
  apply (h world world.files hquiet.shows).mono
  rintro _ after ⟨-, hshows⟩
  exact ⟨⟨hshows.undisturbed.handlers, hshows.undisturbed.streams⟩, hshows.node⟩

namespace Replacement

variable {path : Path}

lemma own_of_step {content : Bytes} {ending : Option Text}
    (hending : ending = none ∨ ending = some Template.backupEnding) {temporary : Path}
    (htemporary : path.Own temporary) {step : ReplacementStep}
    (hstep : step ∈ steps ⟨path, content, ending⟩ temporary) {tree : FileTree} {move : Path × Path}
    (h : step.move? tree = some move) : path.Own move.1 ∧ path.Own move.2 := by
  have hmade : step = .makeParent path ∨ step = .writeTemporary temporary content ∨
      step = .moveToBackup path Template.backupEnding ∨ step = .install temporary path := by
    rcases hending with rfl | rfl <;>
      simp [steps, keepsBackup, Template.backupEnding] at hstep ⊢ <;> tauto
  rcases hmade with rfl | rfl | rfl | rfl
  · cases h
  · cases h
  · rw [ReplacementStep.move?] at h
    split at h
    · rcases path.withEnding?_backupEnding with hnone | hsome
      · rw [hnone] at h
        cases h
      · rw [hsome] at h
        cases h
        exact ⟨.target, .backup⟩
    · cases h
  · cases h
    exact ⟨htemporary, .target⟩

/-- The steps of a replacement, or some of them, move files between the paths of the file only. -/
lemma avoids_of_steps {content : Bytes} {ending : Option Text}
    (hending : ending = none ∨ ending = some Template.backupEnding) (hpath : path ≠ [])
    {tree : FileTree} {taken : List ReplacementStep}
    (htaken : taken ⊆ steps ⟨path, content, ending⟩ (temporary tree path))
    {streams : Log.Streams} (h : ∀ own, path.Own own → streams.Avoids own) :
    ∀ own, path.Own own →
      ((movesOf tree taken).foldl (fun streams move => streams.follow tree move.1 move.2)
        streams).Avoids own := by
  have hmoves : ∀ move ∈ movesOf tree taken, path.Own move.1 ∧ path.Own move.2 :=
    forall_movesOf (fun _ hstep _ _ hmove =>
      own_of_step hending (path.own_temporary tree) (htaken hstep) hmove) tree
  apply Log.Streams.avoids_foldl_follow tree _ h
  -- the paths of a file have one length, so nothing comes from below one of them
  intro move hmove below hbelow
  obtain ⟨hsource, htarget⟩ := hmoves move hmove
  have hlength := hbelow.length_eq hpath
  rw [List.length_append, htarget.length_eq hpath] at hlength
  obtain rfl : below = [] := List.length_eq_zero_iff.1 (by omega)
  rwa [List.append_nil]

end Replacement

namespace Template

/-- Replaces a file up to a number of steps and then fails, with or without the removal of the
temporary file. -/
def replacePartly (count : Nat) (cleans : Bool) (failure : Failure) (replacement : Replacement) :
    Session Unit := do
  let world ← get
  let temporary := Replacement.temporary world.files replacement.path
  let steps := (replacement.steps temporary).take count
  let reached := (runSteps world.files steps).1
  let streams := (movesOf world.files steps).foldl
    (fun streams move => streams.follow world.files move.1 move.2) world.streams
  set { world with files := if cleans then reached.erase temporary else reached, streams }
  throw failure

/-- The installation of a rendering by a given way of replacing files. -/
def installBy (replace : Replacement → Session Unit) (path : Path) (encoding : Encoding)
    (texts : Table) : Session Nat := do
  let backup ← Session.backupPath path backupEnding
  let rendering ←
    if ← Session.holds backup then
      let rendering ← renderFile path encoding texts (← Session.readBytes backup)
      replace ⟨path, rendering.content, none⟩
      Journal.record (.bytesWritten rendering.content.length (Session.pathText path))
      pure rendering
    else
      let rendering ← renderFile path encoding texts (← Session.readBytes path)
      replace ⟨path, rendering.content, some backupEnding⟩
      Journal.record (.bytesWritten rendering.content.length (Session.pathText path))
      pure rendering
  Journal.record (.linesReplaced rendering.replaced (Session.pathText path))
  return rendering.replaced

lemma installBy_replaceFile : installBy Session.replaceFile = install := by
  funext path encoding texts
  simp only [installBy, install, Session.writeBytes, bind_assoc]

/-- What a way of replacing a file must leave: the original stands, and when the replacing returns
the new contents do too. -/
def Outcome (path : Path) (original content : Bytes) (result : Except Failure Unit)
    (after : World) : Prop :=
  after.Apart path ∧ after.files.Kept path original ∧
    (result = .ok () → Replacement.Replaced path original content after.files)

/-- A way of replacing a file that keeps its original. -/
structure KeepsOriginal (path : Path) (original : Bytes) (replace : Replacement → Session Unit) :
    Prop where
  first : ∀ (world : World) (content : Bytes), world.Apart path →
    world.files.Original path original →
      (replace ⟨path, content, some backupEnding⟩).Ends world (Outcome path original content)
  further : ∀ (world : World) (content : Bytes), world.Apart path →
    world.files.BackedUp path original →
      (replace ⟨path, content, none⟩).Ends world (Outcome path original content)

variable {path : Path} {original content : Bytes} {world : World} {ending : Option Text}

lemma ends_replacePartly (hworld : world.Apart path) (hpath : path ≠ [])
    (hending : ending = none ∨ ending = some backupEnding)
    (h : Passes (FileTree.Kept path original) (Replacement.Replaced path original content)
      world.files (Replacement.steps ⟨path, content, ending⟩
        (Replacement.temporary world.files path)))
    (count : Nat) (cleans : Bool) (failure : Failure) :
    (replacePartly count cleans failure ⟨path, content, ending⟩).Ends world
      (Outcome path original content) := by
  unfold replacePartly
  apply Session.ends_get_bind
  apply Session.ends_set_bind
  apply Session.ends_throw
  refine ⟨⟨hworld.handlers, ?_⟩, ?_, ?_⟩
  · exact Replacement.avoids_of_steps hending hpath (List.take_subset _ _) hworld.streams
  · have hkept := h.during count
    cases cleans with
    | false => exact hkept
    | true =>
      exact hkept.erase (Replacement.temporary_ne world.files hpath).symm
        (path.temporary_ne_backup world.files).symm
  · intro hok
    cases hok

lemma ends_replaceFile (hworld : world.Apart path) (hpath : path ≠ [])
    (hending : ending = none ∨ ending = some backupEnding)
    (h : Passes (FileTree.Kept path original) (Replacement.Replaced path original content)
      world.files (Replacement.steps ⟨path, content, ending⟩
        (Replacement.temporary world.files path))) :
    (Session.replaceFile ⟨path, content, ending⟩).Ends world (Outcome path original content) := by
  have hscratch : Replacement.scratch ⟨path, content, ending⟩ world.files =
      Replacement.temporary world.files path := Replacement.scratch_eq content hending world.files
  obtain ⟨hkept, hreplaced⟩ := Replacement.run_of_passes content hpath hscratch h
  unfold Session.replaceFile
  apply Session.ends_get_bind
  rcases hrun : Replacement.run ⟨path, content, ending⟩ world.files with ⟨files, result⟩
  rw [hrun] at hkept hreplaced
  apply Session.ends_set_bind
  set next : World := { world with
    files
    streams := (Replacement.moves ⟨path, content, ending⟩ world.files).foldl
      (fun streams move => streams.follow world.files move.1 move.2) world.streams } with hnext
  have hapart : next.Apart path := by
    refine ⟨hworld.handlers, ?_⟩
    rw [hnext, Replacement.moves, hscratch]
    exact Replacement.avoids_of_steps hending hpath (List.Subset.refl _) hworld.streams
  cases result with
  | error error => exact ⟨hapart, hkept, fun hok => by cases hok⟩
  | ok _ =>
    have hjournal : Session.Tells path.Own _ :=
      Replacement.tells_moved ⟨path, content, ending⟩ (world.files.contains path)
    apply (hjournal.agrees hapart).mono
    intro result last hagrees
    exact ⟨hagrees.apart, hagrees.kept hkept, fun _ => hagrees.replaced (hreplaced rfl)⟩

/-- A way of replacing keeps the original when it leaves what the steps of the replacement do. -/
lemma keepsOriginal_of_passes {replace : Replacement → Session Unit}
    (h : ∀ (world : World) (content : Bytes) (ending : Option Text), world.Apart path → path ≠ [] →
      ending = none ∨ ending = some backupEnding →
      Passes (FileTree.Kept path original) (Replacement.Replaced path original content)
        world.files (Replacement.steps ⟨path, content, ending⟩
          (Replacement.temporary world.files path)) →
      (replace ⟨path, content, ending⟩).Ends world (Outcome path original content)) :
    KeepsOriginal path original replace where
  first world content hworld horiginal :=
    h world content _ hworld horiginal.ne_nil (.inr rfl)
      (Replacement.passes_of_original content horiginal (path.own_temporary _)
        (Replacement.temporary_ne _ horiginal.ne_nil) (path.temporary_ne_backup _))
  further world content hworld hbacked :=
    h world content _ hworld hbacked.ne_nil (.inl rfl)
      (Replacement.passes_of_backedUp content hbacked (path.own_temporary _)
        (Replacement.temporary_ne _ hbacked.ne_nil) (path.temporary_ne_backup _))

lemma keepsOriginal_replaceFile (path : Path) (original : Bytes) :
    KeepsOriginal path original Session.replaceFile :=
  keepsOriginal_of_passes fun _ _ _ hworld hpath hending h =>
    ends_replaceFile hworld hpath hending h

lemma keepsOriginal_replacePartly (path : Path) (original : Bytes) (count : Nat) (cleans : Bool)
    (failure : Failure) : KeepsOriginal path original (replacePartly count cleans failure) :=
  keepsOriginal_of_passes fun _ _ _ hworld hpath hending h =>
    ends_replacePartly hworld hpath hending h count cleans failure

lemma ends_holds {result : Except FileError Bool} (h : world.files.holds path = result) :
    (Session.holds path).Ends world fun found after =>
      after = world ∧ found = result.mapError .file := by
  subst h
  exact ⟨rfl, rfl⟩

/-- To ask for the backup of a file tells in which of the two places the original stands; the asking
fails only while there is no backup. -/
lemma ends_ask {α : Type} {rest : Path → Bool → Session α} {post : Except Failure α → World → Prop}
    (h : world.files.Kept path original)
    (hfirst : world.files.Original path original → (rest path.backup false).Ends world post)
    (hfurther : world.files.BackedUp path original → (rest path.backup true).Ends world post)
    (hfailure : world.files.Original path original → ∀ failure, post (.error failure) world) :
    (do
      let backup ← Session.backupPath path backupEnding
      let found ← Session.holds backup
      rest backup found : Session α).Ends world post := by
  rw [Session.backupPath]
  rcases h with horiginal | hbacked
  · rcases path.withEnding?_backupEnding with hnone | hsome
    · rw [hnone]
      exact hfailure horiginal _
    · rw [hsome]
      simp only [pure_bind]
      rcases horiginal.holds_backup with hfound | ⟨error, hfound⟩
      · apply (ends_holds hfound).bind
        · rintro _ _ ⟨rfl, ⟨⟩⟩
          exact hfirst horiginal
        · rintro _ _ ⟨-, ⟨⟩⟩
      · apply (ends_holds hfound).bind
        · rintro _ _ ⟨-, ⟨⟩⟩
        · rintro failure _ ⟨rfl, -⟩
          exact hfailure horiginal failure
  · rw [hbacked.named]
    simp only [pure_bind]
    apply (ends_holds hbacked.holds_backup).bind
    · rintro _ _ ⟨rfl, ⟨⟩⟩
      exact hfurther hbacked
    · rintro _ _ ⟨-, ⟨⟩⟩

lemma ends_readBytes {content : Bytes} (h : world.files.get? path = some (.file content)) :
    (Session.readBytes path).Ends world fun result after =>
      after = world ∧ result = .ok content := by
  refine ⟨rfl, ?_⟩
  change (world.files.read path).mapError Failure.file = .ok content
  rw [FileTree.read, h]
  rfl

lemma ends_renderFile (hworld : world.Apart path) (encoding : Encoding) (texts : Table)
    (template : Bytes) :
    (renderFile path encoding texts template).Ends world fun result after =>
      World.Agrees path world after ∧
        ∀ rendering, result = .ok rendering → render encoding texts template = some rendering := by
  unfold renderFile
  cases hrender : render encoding texts template with
  | none => exact ⟨hworld.agrees, fun rendering h => by cases h⟩
  | some rendering =>
    have hjournal : Session.Tells path.Own _ := Session.Tells.of_records
      (fun tag => Event.tagUnknown tag (Session.pathText path)) rendering.unknown
    apply (hjournal.agrees hworld).bind
    · intro _ after hagrees
      exact ⟨hagrees, fun found h => by cases h; rfl⟩
    · intro _ _ hagrees
      exact ⟨hagrees, fun found h => by cases h⟩

/-- The original stands, and an installation that returned rendered it. -/
def Installed (path : Path) (original : Bytes) (encoding : Encoding) (texts : Table)
    (result : Except Failure Nat) (after : World) : Prop :=
  after.Apart path ∧ after.files.Kept path original ∧
    ∀ count, result = .ok count → ∃ rendering, render encoding texts original = some rendering ∧
      after.files.get? path = some (.file rendering.content) ∧ count = rendering.replaced

/-- Both branches of an installation render the original and replace the file. -/
lemma ends_branch {replace : Replacement → Session Unit} {state : FileTree → Prop}
    (hstate : ∀ {before after : World}, World.Agrees path before after → state before.files →
      state after.files)
    (hkept : ∀ tree, state tree → tree.Kept path original)
    (hreplace : ∀ (world : World) (content : Bytes), world.Apart path → state world.files →
      (replace ⟨path, content, ending⟩).Ends world (Outcome path original content))
    (hworld : world.Apart path) (h : state world.files) (encoding : Encoding) (texts : Table) :
    (do
      let rendering ← renderFile path encoding texts original
      replace ⟨path, rendering.content, ending⟩
      Journal.record (.bytesWritten rendering.content.length (Session.pathText path))
      Journal.record (.linesReplaced rendering.replaced (Session.pathText path))
      return rendering.replaced : Session Nat).Ends world
        (Installed path original encoding texts) := by
  apply (ends_renderFile hworld encoding texts original).bind
  · rintro rendering between ⟨hagrees, hrender⟩
    apply (hreplace between rendering.content hagrees.apart (hstate hagrees h)).bind
    · rintro _ after ⟨hapart, hafter, hreplaced⟩
      have hjournal : Session.Tells path.Own (do
          Journal.record (.bytesWritten rendering.content.length (Session.pathText path))
          Journal.record (.linesReplaced rendering.replaced (Session.pathText path)) :
            Session Unit) :=
        (Session.Tells.of_record _).bind fun _ => .of_record _
      rw [← bind_assoc]
      apply (hjournal.agrees hapart).bind
      · intro _ last hlast
        refine ⟨hlast.apart, hlast.kept hafter, ?_⟩
        rintro _ ⟨⟩
        exact ⟨rendering, hrender rendering rfl, (hlast.replaced (hreplaced rfl)).2, rfl⟩
      · intro _ last hlast
        exact ⟨hlast.apart, hlast.kept hafter, fun count h => by cases h⟩
    · rintro _ after ⟨hapart, hafter, -⟩
      exact ⟨hapart, hafter, fun count h => by cases h⟩
  · rintro _ after ⟨hagrees, -⟩
    exact ⟨hagrees.apart, hkept _ (hstate hagrees h), fun count h => by cases h⟩

/-- An installation by any way of replacing that keeps the original keeps it, and when it returns it
has rendered the original: what the file held before does not count. -/
theorem ends_installBy {replace : Replacement → Session Unit}
    (hreplace : KeepsOriginal path original replace) (hworld : world.Apart path)
    (h : world.files.Kept path original) (encoding : Encoding) (texts : Table) :
    (installBy replace path encoding texts).Ends world
      (Installed path original encoding texts) := by
  unfold installBy
  simp only [pure_bind]
  apply ends_ask h
  · intro horiginal
    rw [if_neg Bool.false_ne_true]
    apply (ends_readBytes horiginal.file).bind
    · rintro content _ ⟨rfl, hcontent⟩
      obtain rfl := Except.ok.inj hcontent
      exact ends_branch World.Agrees.original (fun _ => .inl) hreplace.first hworld horiginal
        encoding texts
    · rintro failure _ ⟨-, hcontent⟩
      cases hcontent
  · intro hbacked
    rw [if_pos rfl]
    apply (ends_readBytes hbacked.backup).bind
    · rintro content _ ⟨rfl, hcontent⟩
      obtain rfl := Except.ok.inj hcontent
      exact ends_branch World.Agrees.backedUp (fun _ => .inr) hreplace.further hworld hbacked
        encoding texts
    · rintro failure _ ⟨-, hcontent⟩
      cases hcontent
  · intro horiginal failure
    exact ⟨hworld, .inl horiginal, fun count hok => by cases hok⟩

lemma ends_renameFile {source target : Path} {files : FileTree}
    (h : world.files.rename source target = .ok files) :
    (Session.renameFile source target).Ends world fun result after => result = .ok () ∧
      after = { world with
        files
        streams := world.streams.follow world.files source target } := by
  unfold Session.renameFile
  apply Session.ends_get_bind
  rw [h]
  exact ⟨rfl, rfl⟩

/-- What restoring does to the files: the backup of a file, if there is one, is moved back. -/
def moveBack (path : Path) : Session Bool := do
  let backup ← Session.backupPath path backupEnding
  let found ← Session.holds backup
  if found then Session.renameFile backup path
  return found

lemma restore_eq (path : Path) :
    restore path = do
      let found ← moveBack path
      Journal.record (if found then .fileRestored (Session.pathText path)
        else .nothingToRestore (Session.pathText path))
      return found := by
  simp only [restore, moveBack, bind_assoc]
  congr 1
  funext backup
  congr 1
  funext found
  cases found <;> simp

/-- The original stands alone; it was moved back when it stood in the backup. -/
def Restored (path : Path) (original : Bytes) (before : World) (result : Except Failure Bool)
    (after : World) : Prop :=
  after.Apart path ∧ after.files.Original path original ∧
    (before.files.BackedUp path original → result = .ok true)

lemma ends_moveBack (hworld : world.Apart path) (h : world.files.Kept path original) :
    (moveBack path).Ends world (Restored path original world) := by
  unfold moveBack
  apply ends_ask h
  · intro horiginal
    exact ⟨hworld, horiginal, fun hbacked => absurd hbacked horiginal.not_backedUp⟩
  · intro hbacked
    obtain ⟨restored, hrename, hrestored⟩ := hbacked.rename
    rw [if_pos rfl]
    apply (ends_renameFile hrename).bind
    · rintro _ _ ⟨-, rfl⟩
      refine ⟨⟨hworld.handlers, fun own hown => ?_⟩, hrestored, fun _ => rfl⟩
      apply (hworld.streams own hown).follow_beside (hworld.streams path.backup .backup)
      rw [hown.length_eq hbacked.ne_nil]
    · rintro failure _ ⟨hfailure, -⟩
      cases hfailure
  · intro horiginal failure
    exact ⟨hworld, horiginal, fun hbacked => absurd hbacked horiginal.not_backedUp⟩

/-- A call on a template file in one world leaves another one. A rewriting can be stopped between
any two steps of its replacing, by a failure or by the end of the program, and a restoring after the
backup was moved. -/
inductive Call (path : Path) (world : World) : World → Prop
  | installed (encoding : Encoding) (texts : Table) :
      Call path world ((install path encoding texts).run.run world).2
  | stopped (count : Nat) (cleans : Bool) (failure : Failure) (encoding : Encoding)
      (texts : Table) :
      Call path world
        ((installBy (replacePartly count cleans failure) path encoding texts).run.run world).2
  | restored : Call path world ((restore path).run.run world).2
  | movedBack : Call path world ((moveBack path).run.run world).2

lemma ends_restore (hworld : world.Apart path) (h : world.files.Kept path original) :
    (restore path).Ends world (Restored path original world) := by
  rw [restore_eq]
  apply (ends_moveBack hworld h).bind
  · rintro found between ⟨hbetween, horiginal, hfound⟩
    set event : Event := if found then .fileRestored (Session.pathText path)
      else .nothingToRestore (Session.pathText path)
    have hagrees := hbetween.deliver event
    apply Session.ends_record_bind
    exact ⟨hagrees.apart, hagrees.original horiginal, hfound⟩
  · rintro failure after h
    exact h

lemma ends_install (hworld : world.Apart path) (h : world.files.Kept path original)
    (encoding : Encoding) (texts : Table) :
    (install path encoding texts).Ends world (Installed path original encoding texts) := by
  rw [← installBy_replaceFile]
  exact ends_installBy (keepsOriginal_replaceFile path original) hworld h encoding texts

/-- A call keeps the original. -/
lemma Call.kept {after : World} (hcall : Call path world after) (hworld : world.Apart path)
    (h : world.files.Kept path original) :
    after.Apart path ∧ after.files.Kept path original := by
  cases hcall with
  | installed encoding texts =>
    obtain ⟨hapart, hkept, -⟩ := ends_install hworld h encoding texts
    exact ⟨hapart, hkept⟩
  | stopped count cleans failure encoding texts =>
    have hreplace := keepsOriginal_replacePartly path original count cleans failure
    obtain ⟨hapart, hkept, -⟩ := ends_installBy hreplace hworld h encoding texts
    exact ⟨hapart, hkept⟩
  | restored =>
    obtain ⟨hapart, horiginal, -⟩ := ends_restore hworld h
    exact ⟨hapart, .inl horiginal⟩
  | movedBack =>
    obtain ⟨hapart, horiginal, -⟩ := ends_moveBack hworld h
    exact ⟨hapart, .inl horiginal⟩

/-- Any number of calls keeps the original. -/
lemma kept_of_calls {reached : World} (hcalls : Relation.ReflTransGen (Call path) world reached)
    (hworld : world.Apart path) (h : world.files.Kept path original) :
    reached.Apart path ∧ reached.files.Kept path original := by
  induction hcalls with
  | refl => exact ⟨hworld, h⟩
  | tail _ hcall ih => exact hcall.kept ih.1 ih.2

/-- After any calls on a file that had no backup, the original stands under its path, while there is
no backup, or in the backup. From there restoring leaves the original alone, and it returns when
there is a backup; a rewriting that returns leaves the rendering of the original. -/
theorem original_survives_calls {reached : World}
    (hfile : world.files.get? path = some (.file original))
    (hbackup : world.files.get? path.backup = none) (hworld : world.Apart path)
    (hcalls : Relation.ReflTransGen (Call path) world reached) :
    (reached.files.get? path = some (.file original) ∧ reached.files.get? path.backup = none ∨
      reached.files.get? path.backup = some (.file original)) ∧
    (restore path).Ends reached (fun result after =>
      after.files.get? path = some (.file original) ∧ after.files.get? path.backup = none ∧
        (reached.files.contains path.backup = true → result = .ok true)) ∧
    ∀ encoding texts, (install path encoding texts).Ends reached fun result after =>
      ∀ count, result = .ok count →
        ∃ rendering, render encoding texts original = some rendering ∧
          after.files.get? path = some (.file rendering.content) ∧
          count = rendering.replaced := by
  obtain ⟨hapart, hkept⟩ := kept_of_calls hcalls hworld (.inl ⟨hfile, hbackup⟩)
  refine ⟨hkept.imp (fun h => ⟨h.file, h.backup⟩) (·.backup), ?_, ?_⟩
  · apply (ends_restore hapart hkept).mono
    rintro result after ⟨-, horiginal, hfound⟩
    refine ⟨horiginal.file, horiginal.backup, fun hcontains => ?_⟩
    rcases hkept with halone | hbacked
    · rw [FileTree.contains, halone.backup] at hcontains
      cases hcontains
    · exact hfound hbacked
  · intro encoding texts
    apply (ends_install hapart hkept encoding texts).mono
    rintro result after ⟨-, -, hrendered⟩
    exact hrendered

/-- A file with a marked line and the line below it. -/
def templateBytes : Bytes :=
  ("// $replace(port)\n80\n".toList).flatMap Encoding.utf8Bytes

def templateWorld : World where
  machine := default
  files := ⟨[(["conf".toList], .file templateBytes)]⟩

def templateTexts : Table :=
  .ofPairs [("port".toList, "81".toList)]

/-- The world in which a rewriting stopped when the file had been moved to its backup. -/
def stoppedWorld : World :=
  ((installBy (replacePartly 3 false .undecodable) ["conf".toList] .utf8 templateTexts).run.run
    templateWorld).2

theorem original_survives_stopped_rewriting :
    stoppedWorld.files.get? ["conf".toList] = none ∧
      ((restore ["conf".toList]).Ends stoppedWorld fun result after => result = .ok true ∧
        after.files.get? ["conf".toList] = some (.file templateBytes) ∧
        after.files.get? (Path.backup ["conf".toList]) = none) ∧
      (install ["conf".toList] .utf8 templateTexts).Ends stoppedWorld fun result after =>
        result = .ok 1 ∧ ∃ rendering, render .utf8 templateTexts templateBytes = some rendering ∧
          after.files.get? ["conf".toList] = some (.file rendering.content) := by
  have hworld : templateWorld.Apart ["conf".toList] := World.apart_of_silent rfl rfl
  obtain ⟨-, hrestored, hinstalled⟩ := @original_survives_calls ["conf".toList] templateBytes
    templateWorld stoppedWorld (by decide +kernel) (by decide +kernel) hworld
    (.single (.stopped 3 false .undecodable .utf8 templateTexts))
  have hreturned : ((install ["conf".toList] .utf8 templateTexts).run.run stoppedWorld).1 =
      .ok 1 := by decide +kernel
  refine ⟨by decide +kernel, ?_, ?_⟩
  · apply hrestored.mono
    rintro result after ⟨hfile, hbackup, hresult⟩
    exact ⟨hresult (by decide +kernel), hfile, hbackup⟩
  · obtain ⟨rendering, hrender, hfile, -⟩ := hinstalled .utf8 templateTexts 1 hreturned
    exact ⟨hreturned, rendering, hrender, hfile⟩

end Template

end Keyfile
