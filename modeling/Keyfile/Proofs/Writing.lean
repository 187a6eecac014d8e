import Keyfile.Proofs.Overriding
import Keyfile.Proofs.ReplacedTrees
import Keyfile.Proofs.Undisturbed
import Keyfile.Template.Definition

/-!
# Writing files

A call that writes a file either fails, and then no file has changed and no temporary file is left,
or it ends well, and then the file has exactly its new contents, the previous ones are in the backup
when one is wanted, and every other file is as it was. This holds of all calls that write, whatever
stands in the tree, among the places that logging keeps away from.
-/

namespace Keyfile

namespace Session

variable {α β : Type} {world : World}

/-- What follows a session that looks at the world runs in the same world. -/
lemma Looks.ends_bind {x : Session α} (h : Looks x) {f : α → Session β}
    {post : Except Failure β → World → Prop}
    (hok : ∀ a, (x.run.run world).1 = .ok a → (f a).Ends world post)
    (herror : ∀ failure, post (.error failure) world) : (x >>= f).Ends world post := by
  unfold Ends
  rw [run_bind, h.run_eq]
  rcases hresult : (x.run.run world).1 with failure | a
  · exact herror failure
  · exact hok a hresult

lemma looks_holds (path : Path) : Looks (holds path) :=
  .get_bind fun _ => .of_except _ _

lemma looks_readBytes (path : Path) : Looks (readBytes path) :=
  .get_bind fun _ => .of_except _ _

lemma result_holds {path : Path} {found : Bool} (h : ((holds path).run.run world).1 = .ok found) :
    found = world.files.contains path := by
  have hresult : (world.files.holds path).mapError Failure.file = .ok found := h
  unfold FileTree.holds at hresult
  split at hresult
  · rename_i hthere
    cases hresult
    exact hthere.symm
  · rename_i hmissing
    split at hresult
    · cases hresult
    · cases hresult
      exact (eq_false_of_ne_true hmissing).symm

lemma result_readBytes {path : Path} {content : Bytes}
    (h : ((readBytes path).run.run world).1 = .ok content) :
    world.files.read path = .ok content := by
  have hresult : (world.files.read path).mapError Failure.file = .ok content := h
  cases hread : world.files.read path with
  | error error =>
    rw [hread] at hresult
    cases hresult
  | ok found =>
    rw [hread] at hresult
    cases hresult
    rfl

end Session

namespace Replacement

variable {replacement : Replacement} {places : Path → Prop} {world : World}
  {tree before after last : FileTree} {own : Path}

lemma settled_of_sound (h : tree.Sound) : replacement.Settled tree := by
  intro own _ hfree below hbelow
  by_contra hthere
  exact hfree (h own below hbelow (eq_true_of_ne_false hthere))

/-- What a replacement leaves is told by its places and those in view. -/
lemma Leaves.congr {ε α : Type} {result : Except ε α} {seen : Path → Prop}
    (h : replacement.Leaves seen before after result)
    (hseen : ∀ place, places place → seen place)
    (huses : ∀ own, replacement.Uses own → places own)
    (hbefore : ∀ place, places place → before.get? place = tree.get? place)
    (hafter : ∀ place, places place → last.get? place = after.get? place) :
    replacement.Leaves places tree last result := by
  have hothers : ∀ place, places place → before.SameFile after place →
      tree.SameFile last place := by
    intro place hplace hsame content
    rw [hafter place hplace, ← hbefore place hplace]
    exact hsame content
  have htarget := huses _ .target
  cases result with
  | error error => exact fun place hplace => hothers place hplace (h place (hseen place hplace))
  | ok a =>
    constructor
    · rw [hafter _ htarget]
      exact h.content
    · intro hkeeps previous hprevious
      rw [← hbefore _ htarget] at hprevious
      obtain ⟨backup, hnamed, hbackup⟩ := h.backup hkeeps previous hprevious
      exact ⟨backup, hnamed, (hafter _ (huses _ (.backup hnamed))).trans hbackup⟩
    · rintro place hplace hne hunused
      refine hothers place hplace (h.others place (hseen place hplace) hne ?_)
      rintro ⟨hkeeps, hthere, hnamed⟩
      refine hunused ⟨hkeeps, ?_, hnamed⟩
      rwa [FileTree.contains, ← hbefore _ htarget]

lemma uses_of_mem_moves {move : Path × Path} (h : move ∈ replacement.moves tree) :
    replacement.Uses move.1 := by
  refine forall_movesOf (p := fun move => replacement.Uses move.1) ?_ tree move h
  intro step hstep tree' move hmove
  have hsteps : step = .makeParent replacement.path ∨
      step = .writeTemporary (replacement.scratch tree) replacement.content ∨
      step = .moveToBackup replacement.path (replacement.backupEnding.getD []) ∨
      step = .install (replacement.scratch tree) replacement.path := by
    unfold steps at hstep
    split at hstep <;> simp at hstep <;> tauto
  rcases hsteps with rfl | rfl | rfl | rfl
  · cases hmove
  · cases hmove
  · rw [ReplacementStep.move?] at hmove
    split at hmove
    · obtain ⟨backup, -, rfl⟩ := Option.map_eq_some_iff.1 hmove
      exact .target
    · cases hmove
  · cases hmove
    exact replacement.uses_scratch tree

/-- A replacement in a world leaves what it leaves in a tree that looks like the world's one. -/
lemma ends_replaceFile (hshows : world.Shows places tree)
    (hplaces : ∀ own, replacement.Uses own → ∀ below, places (own ++ below))
    (hsettled : replacement.Settled tree)
    (hfree : replacement.keepsBackup → tree.get? replacement.path ≠ some .directory) :
    (Session.replaceFile replacement).Ends world fun result after =>
      after.Undisturbed places ∧ replacement.Leaves places tree after.files result := by
  have huses : ∀ own, replacement.Uses own → places own := by
    intro own hown
    have hplace := hplaces own hown []
    rwa [List.append_nil] at hplace
  have hseen : ∀ place : Path, places place → True := fun _ _ => trivial
  -- the tree is looked at and changed in view only, and there both trees look the same
  have hthere : replacement.Settled world.files := by
    intro own hown hother
    rw [hshows.node own (huses own hown)] at hother
    exact (hsettled own hown hother).congr fun below _ => hshows.node _ (hplaces own hown below)
  have hleaves := leaves_run_tree hthere fun hkeeps => by
    rw [hshows.node _ (huses _ .target)]
    exact hfree hkeeps
  have hmoves : ∀ move ∈ replacement.moves world.files, ∀ below, places (move.2 ++ below) →
      places (move.1 ++ below) :=
    fun move hmove below _ => hplaces move.1 (uses_of_mem_moves hmove) below
  have hstreams := Log.Streams.avoids_foldl_follow world.files hmoves hshows.undisturbed.streams
  unfold Session.replaceFile
  apply Session.ends_get_bind
  rcases hrun : replacement.run world.files with ⟨files, result⟩
  rw [hrun] at hleaves
  apply Session.ends_set_bind
  set next : World := { world with
    files
    streams := (replacement.moves world.files).foldl
      (fun streams move => streams.follow world.files move.1 move.2) world.streams } with hnext
  have hquiet : next.Undisturbed places := ⟨hshows.undisturbed.handlers, hstreams⟩
  cases result with
  | error error => exact ⟨hquiet, hleaves.congr hseen huses hshows.node fun _ _ => rfl⟩
  | ok _ =>
    apply (replacement.tells_moved (world.files.contains _) next files hquiet.shows).mono
    rintro _ last ⟨⟨_, rfl⟩, hlast⟩
    exact ⟨hlast.undisturbed, hleaves.congr hseen huses hshows.node hlast.node⟩

lemma ends_replaceFile_bind {f : Unit → Session Unit} (hjournal : ∀ u, Session.Tells places (f u))
    (hshows : world.Shows places tree)
    (hplaces : ∀ own, replacement.Uses own → ∀ below, places (own ++ below))
    (hsettled : replacement.Settled tree)
    (hfree : replacement.keepsBackup → tree.get? replacement.path ≠ some .directory) :
    (Session.replaceFile replacement >>= f).Ends world fun result after =>
      replacement.Leaves places tree after.files result := by
  have huses : ∀ own, replacement.Uses own → places own := by
    intro own hown
    have hplace := hplaces own hown []
    rwa [List.append_nil] at hplace
  apply (ends_replaceFile hshows hplaces hsettled hfree).bind
  · rintro _ after ⟨hquiet, hleaves⟩
    apply (hjournal () after after.files hquiet.shows).mono
    rintro _ last ⟨⟨_, rfl⟩, hlast⟩
    exact hleaves.congr (fun _ => id) huses (fun _ _ => rfl) hlast.node
  · rintro failure after ⟨-, hleaves⟩
    exact hleaves

end Replacement

/-- A call that gives a file new contents. -/
inductive Writing
  | text (file contents : Text) (encoding : Encoding) (overwrite : Bool)
    (backupEnding : Option Text)
  | bytes (file : Text) (content : Bytes) (backupEnding : Option Text)
  | configuration (file : Text) (surrounded : Surrounded) (scope : Option Text)
  | definitions (file name value : Text) (encoding : Encoding)
  | template (file : Text) (encoding : Encoding) (texts : Table)

namespace Writing

def file : Writing → Text
  | text file .. | bytes file .. | configuration file .. | definitions file .. | template file .. =>
    file

def run : Writing → Session Unit
  | text file contents encoding overwrite backupEnding => do
    Session.writeText (← Session.resolve file) contents encoding overwrite backupEnding
  | bytes file content backupEnding => do
    Session.writeBytes (← Session.resolve file) content backupEnding
  | configuration file surrounded scope => do
    surrounded.save scope (← Session.resolve file)
  | definitions file name value encoding => do
    let _ ← Session.editDefinitions file name value encoding
  | template file encoding texts => do
    let _ ← Template.install (← Session.resolve file) encoding texts

/-- The replacement that a call comes to, its new contents taken from what the tree holds; none when
there are no such contents or the file must not be there. -/
def replacement? (tree : FileTree) (path : Path) : Writing → Option Replacement
  | text _ contents encoding overwrite backupEnding =>
    if tree.contains path && !overwrite then none
    else (encoding.encode? contents).map (⟨path, ·, backupEnding⟩)
  | bytes _ content backupEnding => some ⟨path, content, backupEnding⟩
  | configuration _ surrounded scope =>
    (Encoding.utf8.encode? (surrounded.config.saved scope)).map (⟨path, ·, none⟩)
  | definitions _ name value encoding => do
    let source ← encoding.decode? (← (tree.read path).toOption)
    let content ← encoding.encode? (editDefinitions name value (Text.normalizeNewlines source))
    return ⟨path, content, none⟩
  | template _ encoding texts =>
    if tree.contains path.backup then do
      let rendering ← Template.render encoding texts (← (tree.read path.backup).toOption)
      return ⟨path, rendering.content, none⟩
    else do
      let rendering ← Template.render encoding texts (← (tree.read path).toOption)
      return ⟨path, rendering.content, some Template.backupEnding⟩

/-- A call, made in a world, asks for a replacement. -/
def Asks (call : Writing) (world : World) (replacement : Replacement) : Prop :=
  ∃ path, ((Session.resolve call.file).run.run world).1 = .ok path ∧
    call.replacement? world.files path = some replacement

/-- What a call leaves, as it ends: of some places all files as they were, or what it asked for. -/
def Leaves (call : Writing) (places : Path → Prop) (before : World) (result : Except Failure Unit)
    (after : World) : Prop :=
  match result with
  | .error _ => ∀ place, places place → before.files.SameFile after.files place
  | .ok _ => ∃ replacement, call.Asks before replacement ∧
      replacement.Done places before.files after.files

/-- Wherever the places look as they did before a call, what it asks for is replaced. -/
def Replaces (call : Writing) (places : Path → Prop) (world : World) : Prop :=
  ∀ (middle : World) (replacement : Replacement) (f : Unit → Session Unit),
    call.Asks world replacement → middle.Shows places world.files →
      (∀ u, Session.Tells places (f u)) →
        (Session.replaceFile replacement >>= f).Ends middle (call.Leaves places world)

variable {call : Writing} {world : World} {places : Path → Prop}

lemma replaces_of_sound (hsound : world.files.Sound)
    (hplaces : ∀ replacement, call.Asks world replacement →
      ∀ own, replacement.Uses own → ∀ below, places (own ++ below))
    (hfree : ∀ replacement, call.Asks world replacement → replacement.keepsBackup →
      world.files.get? replacement.path ≠ some .directory) :
    call.Replaces places world := by
  intro middle replacement f hasks hshows hjournal
  apply (Replacement.ends_replaceFile_bind hjournal hshows (hplaces replacement hasks)
    (Replacement.settled_of_sound hsound) (hfree replacement hasks)).mono
  intro result after hleaves
  cases result with
  | ok _ => exact ⟨replacement, hasks, hleaves⟩
  | error failure => exact hleaves

lemma leaves_failure (failure : Failure) : call.Leaves places world (.error failure) world :=
  fun _ _ => .of_eq rfl

lemma ends_writeText (hreplaces : call.Replaces places world)
    (hquiet : world.Undisturbed places) {path : Path} {contents : Text} {encoding : Encoding}
    {overwrite : Bool} {backupEnding : Option Text} {f : Unit → Session Unit}
    (hasks : ∀ content, encoding.encode? contents = some content →
      (world.files.contains path && !overwrite) = false →
        call.Asks world ⟨path, content, backupEnding⟩)
    (hjournal : ∀ u, Session.Tells places (f u)) :
    (Session.writeText path contents encoding overwrite backupEnding >>= f).Ends world
      (call.Leaves places world) := by
  unfold Session.writeText
  rw [bind_assoc]
  apply (Session.looks_holds path).ends_bind _ leaves_failure
  intro found hfound
  have hfound := Session.result_holds hfound
  by_cases hthere : (found && !overwrite) = true
  · rw [if_pos hthere]
    exact leaves_failure _
  rw [if_neg hthere]
  dsimp only
  cases hencoded : encoding.encode? contents with
  | none => exact leaves_failure _
  | some content =>
    dsimp only
    rw [bind_assoc]
    apply hreplaces world _ _ (hasks content hencoded _) hquiet.shows
    · intro u
      exact (Session.Tells.of_record _).bind hjournal
    · rw [← hfound]
      exact eq_false_of_ne_true hthere

/-- The replacement of a rendering tells of the tags without a text before, and of what it did
behind. -/
lemma ends_rendered (hreplaces : call.Replaces places world) (hquiet : world.Undisturbed places)
    {path source : Path} {encoding : Encoding} {texts : Table} {backupEnding : Option Text}
    {f : Template.Rendering → Session Unit}
    (hasks : ∀ template rendering, world.files.read source = .ok template →
      Template.render encoding texts template = some rendering →
        call.Asks world ⟨path, rendering.content, backupEnding⟩)
    (hjournal : ∀ rendering, Session.Tells places (f rendering)) :
    (do
      let template ← Session.readBytes source
      let rendering ← Template.renderFile path encoding texts template
      Session.writeBytes path rendering.content backupEnding
      f rendering : Session Unit).Ends world (call.Leaves places world) := by
  apply (Session.looks_readBytes source).ends_bind _ leaves_failure
  intro template htemplate
  unfold Template.renderFile
  cases hrender : Template.render encoding texts template with
  | none => exact leaves_failure _
  | some rendering =>
    have htells : Session.Tells places _ := Session.Tells.of_records
      (fun tag => Event.tagUnknown tag (Session.pathText path)) rendering.unknown
    dsimp only
    rw [bind_assoc]
    apply (htells world world.files hquiet.shows).bind
    · -- recording the tags can have changed files, but none in view
      rintro _ middle ⟨-, hmiddle⟩
      rw [pure_bind, Session.writeBytes, bind_assoc]
      apply hreplaces middle _ _ (hasks template rendering _ hrender) hmiddle
      · intro u
        exact (Session.Tells.of_record _).bind fun _ => hjournal rendering
      · exact Session.result_readBytes htemplate
    · rintro _ _ ⟨⟨_, ⟨⟩⟩, -⟩

lemma ends_definitions {file name value : Text} {encoding : Encoding}
    (hreplaces : (definitions file name value encoding).Replaces places world)
    (hquiet : world.Undisturbed places) :
    (definitions file name value encoding).run.Ends world
      ((definitions file name value encoding).Leaves places world) := by
  simp only [run, Session.editDefinitions, Session.readText, bind_assoc]
  apply (Session.looks_resolve file).ends_bind _ leaves_failure
  intro path hpath
  apply (Session.looks_readBytes path).ends_bind _ leaves_failure
  intro content hcontent
  have hread := Session.result_readBytes hcontent
  cases hdecoded : encoding.decode? content with
  | none => exact leaves_failure _
  | some source =>
    simp only [pure_bind]
    apply ends_writeText hreplaces hquiet
    · intro encoded hencoded _
      refine ⟨path, hpath, ?_⟩
      simp only [replacement?, hread, Except.toOption, Option.bind_eq_bind, Option.bind_some,
        hdecoded, hencoded]
      rfl
    · intro u
      refine Session.Tells.bind ?_ fun _ => .of_pure ()
      split
      · exact (Session.Tells.of_record _).bind fun _ => .of_pure _
      · exact .of_pure _

lemma ends_template {file : Text} {encoding : Encoding} {texts : Table}
    (hreplaces : (template file encoding texts).Replaces places world)
    (hquiet : world.Undisturbed places) :
    (template file encoding texts).run.Ends world
      ((template file encoding texts).Leaves places world) := by
  simp only [run, Template.install, bind_assoc]
  apply (Session.looks_resolve file).ends_bind _ leaves_failure
  intro path hpath
  have hlast : ∀ rendering : Template.Rendering, Session.Tells places (do
      Journal.record (.linesReplaced rendering.replaced (Session.pathText path))
      pure () : Session Unit) :=
    fun _ => (Session.Tells.of_record _).bind fun _ => .of_pure ()
  rw [Session.backupPath]
  rcases path.withEnding?_backupEnding with hnone | hsome
  · rw [hnone]
    exact leaves_failure _
  rw [hsome]
  simp only [pure_bind]
  apply (Session.looks_holds path.backup).ends_bind _ leaves_failure
  intro found hfound
  have hfound := Session.result_holds hfound
  -- either way a file is rendered: the backup where it is there, or else the file itself
  cases found with
  | true =>
    simp only [if_true, bind_assoc, pure_bind]
    apply ends_rendered hreplaces hquiet _ hlast
    intro original rendering hread hrendering
    refine ⟨path, hpath, ?_⟩
    simp only [replacement?, ← hfound, if_true, hread, Except.toOption, Option.bind_eq_bind,
      Option.bind_some, hrendering]
    rfl
  | false =>
    simp only [Bool.false_eq_true, if_false, bind_assoc, pure_bind]
    apply ends_rendered hreplaces hquiet _ hlast
    intro original rendering hread hrendering
    refine ⟨path, hpath, ?_⟩
    simp only [replacement?, ← hfound, Bool.false_eq_true, if_false, hread, Except.toOption,
      Option.bind_eq_bind, Option.bind_some, hrendering]
    rfl

lemma ends_of_replaces (hreplaces : call.Replaces places world)
    (hquiet : world.Undisturbed places) : call.run.Ends world (call.Leaves places world) := by
  cases call with
  | text file contents encoding overwrite backupEnding =>
    rw [run, ← bind_pure (Session.resolve file >>= _), bind_assoc]
    apply (Session.looks_resolve file).ends_bind _ leaves_failure
    intro path hpath
    apply ends_writeText hreplaces hquiet _ fun _ => .of_pure ()
    intro content hencoded habsent
    refine ⟨path, hpath, ?_⟩
    simp only [replacement?, habsent, Bool.false_eq_true, if_false, hencoded, Option.map_some]
  | bytes file content backupEnding =>
    apply (Session.looks_resolve file).ends_bind _ leaves_failure
    intro path hpath
    exact hreplaces world _ _ ⟨path, hpath, rfl⟩ hquiet.shows fun _ => .of_record _
  | configuration file surrounded scope =>
    rw [run, ← bind_pure (Session.resolve file >>= _), bind_assoc]
    apply (Session.looks_resolve file).ends_bind _ leaves_failure
    intro path hpath
    apply ends_writeText hreplaces hquiet _ fun _ => .of_pure ()
    intro content hencoded _
    refine ⟨path, hpath, ?_⟩
    simp only [replacement?, hencoded, Option.map_some]
  | definitions file name value encoding => exact ends_definitions hreplaces hquiet
  | template file encoding texts => exact ends_template hreplaces hquiet

/-- A call that writes fails and leaves every file as it was, or it ends well: then its file has
exactly the new contents, the backup, if one is wanted and the file was there, its previous ones,
and every other file is as it was. So it is in all places that logging keeps away from, those among
them that the call uses and what is below these; a directory is never to be moved to a backup. -/
theorem done_or_unchanged (call : Writing) {world : World} {places : Path → Prop}
    (hsound : world.files.Sound) (hquiet : world.Undisturbed places)
    (hplaces : ∀ replacement, call.Asks world replacement →
      ∀ own, replacement.Uses own → ∀ below, places (own ++ below))
    (hfree : ∀ replacement, call.Asks world replacement → replacement.keepsBackup →
      world.files.get? replacement.path ≠ some .directory) :
    call.run.Ends world fun result after =>
      ((∃ failure, result = .error failure) ∧
        ∀ place, places place → ∀ content,
          after.files.get? place = some (.file content) ↔
            world.files.get? place = some (.file content)) ∨
      (result = .ok () ∧ ∃ replacement, call.Asks world replacement ∧
        after.files.get? replacement.path = some (.file replacement.content) ∧
        (replacement.keepsBackup → ∀ previous,
          world.files.get? replacement.path = some (.file previous) →
            ∃ backup, replacement.backup? = some backup ∧
              after.files.get? backup = some (.file previous)) ∧
        ∀ place, places place → place ≠ replacement.path →
          ¬(replacement.keepsBackup ∧ world.files.contains replacement.path ∧
            replacement.backup? = some place) →
              ∀ content, after.files.get? place = some (.file content) ↔
                world.files.get? place = some (.file content)) := by
  have hreplaces := replaces_of_sound hsound hplaces hfree
  apply (ends_of_replaces hreplaces hquiet).mono
  intro result after hleaves
  cases result with
  | error failure => exact .inl ⟨⟨failure, rfl⟩, hleaves⟩
  | ok _ =>
    obtain ⟨replacement, hasks, hdone⟩ := hleaves
    exact .inr ⟨rfl, replacement, hasks, hdone.content, hdone.backup, hdone.others⟩

/-- Two notes in a directory. -/
def notesWorld : World where
  machine := default
  files := ⟨[(["d".toList], .directory), (["d".toList, "a".toList], .file [104, 105]),
    (["d".toList, "b".toList], .file [111, 107])]⟩

/-- A note gets a new text, and its previous one is kept. -/
def noteWriting : Writing :=
  text "d/a".toList "new".toList .utf8 true (some ".bak".toList)

theorem done_note :
    noteWriting.run.Ends notesWorld fun result after =>
      result = .ok () ∧
      after.files.get? ["d".toList, "a".toList] = some (.file [110, 101, 119]) ∧
      after.files.get? ["d".toList, "a.bak".toList] = some (.file [104, 105]) ∧
      after.files.get? ["d".toList, "b".toList] = some (.file [111, 107]) := by
  have hasked : ∀ replacement, noteWriting.Asks notesWorld replacement →
      replacement = ⟨["d".toList, "a".toList], [110, 101, 119], some ".bak".toList⟩ := by
    rintro replacement ⟨path, hpath, hreplacement⟩
    have hnamed : ((Session.resolve noteWriting.file).run.run notesWorld).1 =
        .ok ["d".toList, "a".toList] := by decide +kernel
    rw [hnamed] at hpath
    cases hpath
    exact (Option.some.inj hreplacement).symm
  have hsound : notesWorld.files.Sound := FileTree.sound_of_ancestors (by decide +kernel)
  have hquiet : notesWorld.Undisturbed fun _ => True := World.undisturbed_of_silent rfl rfl
  have hends := done_or_unchanged noteWriting hsound hquiet (fun _ _ _ _ _ => trivial) (by
    intro replacement hasks _
    rw [hasked replacement hasks]
    decide +kernel)
  have hresult : (noteWriting.run.run.run notesWorld).1 = .ok () := by decide +kernel
  rcases hends with ⟨⟨failure, hfailure⟩, -⟩ | ⟨-, replacement, hasks, hcontent, hbackup, hothers⟩
  · rw [hresult] at hfailure
    cases hfailure
  obtain rfl := hasked replacement hasks
  refine ⟨hresult, hcontent, ?_, ?_⟩
  · obtain ⟨backup, hnamed, hkept⟩ := hbackup rfl [104, 105] (by decide +kernel)
    obtain rfl : ["d".toList, "a.bak".toList] = backup := Option.some.inj hnamed
    exact hkept
  · exact (hothers _ trivial (by decide) (by decide +kernel) _).2 (by decide +kernel)

end Writing

end Keyfile
