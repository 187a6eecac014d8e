import Keyfile.Proofs.ExitCodes
import Keyfile.Proofs.Rewriting

/-!
# Files after commands

To dump or to look up leaves all files alone, and so does a rendering that fails. Restoring moves
the backup of a file to where the file stands, with all that is below it, or else leaves all files
alone. For an invocation this comes together with its exit code: it has one whenever the journal can
be set up, and then the code tells what became of the command.
-/

namespace Keyfile

namespace FileTree

variable {tree after : FileTree} {path source target : Path}

/-- What stood below the source of a move stands below its target, if that had nothing below it. -/
lemma get?_move_below (h : tree.Bare target) (hsource : source ≠ []) (htarget : target ≠ [])
    (hapart : ¬source <+: target) (below : Path) :
    (tree.move source target).get? (target ++ below) = tree.get? (source ++ below) := by
  have hlookup : ∀ nodes : List (Path × Node), (∀ node ∈ nodes, ¬target <+: node.1) →
      (nodes.map fun node =>
        if source.isPrefixOf node.1 then (target ++ node.1.drop source.length, node.2)
        else node).lookup (target ++ below) = nodes.lookup (source ++ below) := by
    intro nodes hnodes
    induction nodes with
    | nil => rfl
    | cons first rest ih =>
      obtain ⟨name, node⟩ := first
      obtain ⟨hfirst, hrest⟩ := List.forall_mem_cons.1 hnodes
      rw [List.map_cons, List.lookup_cons]
      by_cases hprefix : source.isPrefixOf name
      · obtain ⟨other, rfl⟩ := List.isPrefixOf_iff_prefix.1 hprefix
        have hsame : (target ++ below == target ++ other) =
            (source ++ below == source ++ other) := by
          rw [Bool.eq_iff_iff, beq_iff_eq, beq_iff_eq, List.append_cancel_left_eq,
            List.append_cancel_left_eq]
        rw [if_pos hprefix, List.drop_left, List.lookup_cons, hsame, ih hrest]
      · have hname : (target ++ below == name) = false := by
          rw [beq_eq_false_iff_ne]
          rintro rfl
          exact hfirst (List.prefix_append target below)
        have hother : (source ++ below == name) = false := by
          rw [beq_eq_false_iff_ne]
          rintro rfl
          exact hprefix (List.isPrefixOf_iff_prefix.2 (List.prefix_append source below))
        rw [if_neg hprefix, List.lookup_cons, hname, hother, ih hrest]
  have hkept : ∀ node ∈ (tree.erase target).nodes, ¬target <+: node.1 := by
    rintro ⟨name, node⟩ hnode ⟨other, rfl⟩
    obtain ⟨hmem, hne⟩ := List.mem_filter.1 hnode
    have hother : other ≠ [] := by
      rintro rfl
      simp at hne
    have hthere := contains_of_mem hmem
    rw [h other hother] at hthere
    cases hthere
  have hne : source ++ below ≠ target := by
    rintro rfl
    exact hapart (List.prefix_append source below)
  rw [← get?_erase_of_ne tree hne, get?, get?, if_neg (by simp [htarget]),
    if_neg (by simp [hsource]), move, hlookup _ hkept]

/-- What takes the place of something else is moved there, and a directory only gives way when
nothing stands below it. -/
lemma move_of_rename (hne : source ≠ target) (h : tree.rename source target = .ok after) :
    after = tree.move source target ∧ (tree.get? target = some .directory → tree.Bare target) := by
  have hbare : tree.hasChildren target = false → tree.Bare target := by
    intro hnone below hbelow
    by_contra hthere
    obtain ⟨node, hnode⟩ := Option.isSome_iff_exists.1 (eq_true_of_ne_false hthere)
    rw [get?, if_neg (by simp [hbelow])] at hnode
    obtain ⟨before, last, hnodes, -⟩ := List.lookup_eq_some_iff.1 hnode
    have hchild := List.any_eq_false.1 hnone (target ++ below, node)
      (hnodes ▸ List.mem_append_right _ List.mem_cons_self)
    simp [hbelow, List.isPrefixOf_iff_prefix] at hchild
  unfold rename at h
  split at h
  · cases h
  · cases h
  · cases h
  · split at h
    · cases h
    · rename_i hnone
      cases h
      exact ⟨rfl, fun _ => hbare (eq_false_of_ne_true hnone)⟩
  · rename_i node _ hfile _ hdirectory
    rw [if_neg hne] at h
    split at h
    · cases h
    · cases h
      refine ⟨rfl, fun hthere => ?_⟩
      cases node with
      | file content => exact (hfile content hthere rfl).elim
      | directory => exact (hdirectory hthere rfl).elim

/-- Only directories among the paths of a file have something below them. -/
def SettledAt (tree : FileTree) (path : Path) : Prop :=
  ∀ own, path.Own own → tree.get? own ≠ some .directory → tree.Bare own

/-- What was at the backup of a file and below is at the file and below, nothing is left there, and
of some places the others hold the same files. -/
structure Restored (places : Path → Prop) (path : Path) (before after : FileTree) : Prop where
  moved : ∀ below content, after.get? (path ++ below) = some (.file content) ↔
    before.get? (path.backup ++ below) = some (.file content)
  away : ∀ below, after.contains (path.backup ++ below) = false
  others : ∀ place, places place → ¬path <+: place → ¬path.backup <+: place →
    before.SameFile after place

/-- Only how the places look counts. -/
lemma Restored.congr {places : Path → Prop} {before last : FileTree}
    (h : before.Restored places path after)
    (hplaces : ∀ own, path.Own own → ∀ below, places (own ++ below))
    (hlast : ∀ place, places place → last.get? place = after.get? place) :
    before.Restored places path last where
  moved below content := by
    rw [hlast _ (hplaces _ .target below)]
    exact h.moved below content
  away below := by
    rw [contains, hlast _ (hplaces _ .backup below)]
    exact h.away below
  others place hplace htarget hbackup :=
    (h.others place hplace htarget hbackup).trans (.of_eq (hlast place hplace))

/-- Where a backup takes the place of its file the file is restored. -/
lemma restored_of_rename {places : Path → Prop} (hpath : path ≠ []) (hsettled : tree.SettledAt path)
    (h : tree.rename path.backup path = .ok after) : tree.Restored places path after := by
  have hne := Path.backup_ne hpath
  have hlength : path.backup.length = path.length := Path.Own.length_eq hpath .backup
  have hbackup : path.backup ≠ [] := by simp [Path.backup]
  obtain ⟨rfl, hempty⟩ := move_of_rename hne h
  have hbare : tree.Bare path := by
    by_cases hdirectory : tree.get? path = some .directory
    · exact hempty hdirectory
    · exact hsettled path .target hdirectory
  refine ⟨fun below content => ?_, fun below => ?_, fun place _ htarget hsource => ?_⟩
  · rw [get?_move_below hbare hbackup hpath (Path.not_prefix_of_length hlength hne)]
  · -- the two paths have one length, so what is below one is not below the other
    have hapart : ¬path <+: path.backup ++ below := by
      intro hprefix
      have hbegins := List.prefix_of_prefix_length_le hprefix (List.prefix_append _ below)
        hlength.ge
      exact hne (hbegins.eq_of_length hlength.symm).symm
    rw [contains, get?_move_away _ hbackup below hapart]
    rfl
  · exact .of_eq (get?_move_of_apart _ hsource htarget)

end FileTree

namespace Session

variable {α β : Type} {places : Path → Prop} {x : Session α}

/-- A session that leaves places as they look in any tree, while logging keeps away from them. -/
def Spares (places : Path → Prop) (x : Session α) : Prop :=
  ∀ (world : World) (tree : FileTree), world.Shows places tree →
    x.Ends world fun _ after => after.Shows places tree

namespace Spares

lemma of_looks (h : Looks x) : Spares places x := by
  intro world tree hworld
  rw [Ends, h world]
  exact hworld

lemma of_tells (h : Tells places x) : Spares places x :=
  fun world tree hworld => (h world tree hworld).mono fun _ _ hafter => hafter.2

/-- What comes to the same whatever the files are has changed none of them. -/
lemma of_agree (h : ∀ comparison, Agree (World.Alike comparison) x x) : Spares places x := by
  intro world tree hworld
  set before : World := { world with files := tree }
  have hkeeps : World.Keeps places before world := ⟨⟨rfl, rfl, rfl, rfl⟩, rfl, hworld⟩
  have hafter := (h ⟨places, before, before⟩ world world ⟨.refl world, hkeeps, hkeeps⟩).2
  exact hafter.left.shows

lemma bind {f : α → Session β} (hx : Spares places x) (hf : ∀ a, Spares places (f a)) :
    Spares places (x >>= f) := by
  intro world tree hworld
  apply (hx world tree hworld).bind
  · exact fun a after hafter => hf a after tree hafter
  · exact fun _ _ hafter => hafter

lemma get_bind {f : World → Session α} (h : ∀ world, Spares places (f world)) :
    Spares places (get >>= f) :=
  fun world => h world world

lemma of_pure (a : α) : Spares places (pure a : Session α) :=
  .of_looks (.of_pure a)

lemma of_record (event : Event) : Spares places (Journal.record event : Session Unit) :=
  .of_tells (.of_record event)

end Spares

end Session

namespace Surrounded

variable {comparison : World.Comparison} {places : Path → Prop} (config : Surrounded)

lemma agree_items (scope : Option Text) :
    Session.Agree (World.Alike comparison) (config.items scope) (config.items scope) := by
  apply agree_ofExpansion
  apply Simulation.Matches.mapM
  intro entry
  exact (config.matches_expand _).bind fun _ => .of_pure _

lemma spares_loadFile (path : Path) (encoding : Encoding) :
    Session.Spares places (config.loadFile path encoding) := by
  refine .bind (.of_looks (Session.looks_readText path encoding)) fun text => ?_
  refine .bind (.of_agree fun _ => config.agree_load text) fun loaded => ?_
  exact (Session.Spares.of_record _).bind fun _ => .of_pure _

end Surrounded

namespace Command

open Session (Spares)

variable {places : Path → Prop}

lemma spares_configurationOf (file : Text) : Spares places (configurationOf file) := by
  refine .bind (.get_bind fun world => .of_pure _) fun environment => ?_
  exact (Spares.of_looks (Session.looks_resolve file)).bind fun path =>
    Surrounded.spares_loadFile _ path .utf8

lemma spares_dump (file : Text) (scope : Option Text) (asJson : Bool) :
    Spares places (dump file scope asJson).execute :=
  (spares_configurationOf file).bind fun config =>
    (Spares.of_agree fun _ => config.agree_items (scopeOf scope)).bind fun _ => .of_pure _

lemma spares_get (file : Text) (key : Argument) (default : Option Argument) :
    Spares places (get file key default).execute := by
  cases key with
  | none => exact (spares_configurationOf file).bind fun _ => .of_looks (.of_throw _)
  | some key =>
    rw [execute_get]
    refine .bind ((spares_configurationOf file).bind fun config =>
      .of_agree fun _ => config.agree_get? none key) fun text => ?_
    refine .get_bind fun world => .bind (.of_looks (.of_except _ _)) fun value => ?_
    split
    · exact .of_pure _
    · exact (Spares.of_record _).bind fun _ => .of_pure _

end Command

namespace Replacement

/-- The places of a replacement with a backup of its own are those of the file. -/
lemma own_of_uses {path own : Path} {content : Bytes} {ending : Option Text}
    (hending : ending = none ∨ ending = some Template.backupEnding)
    (h : Replacement.Uses ⟨path, content, ending⟩ own) : path.Own own := by
  cases h with
  | target => exact .target
  | temporary length => exact .temporary length
  | backup h =>
    rcases hending with rfl | rfl
    · cases h
    · have hbackup : (path.withEnding? Template.backupEnding).map (·.path) = some own := h
      rcases path.withEnding?_backupEnding with hnone | hsome
      · rw [hnone] at hbackup
        cases hbackup
      · rw [hsome] at hbackup
        cases hbackup
        exact .backup

end Replacement

namespace Template

variable {path : Path} {places : Path → Prop} {world : World} {encoding : Encoding} {texts : Table}

lemma spares_renderFile (template : Bytes) :
    Session.Spares places (renderFile path encoding texts template) := by
  unfold renderFile
  cases render encoding texts template with
  | none => exact .of_looks (.of_throw _)
  | some rendering =>
    exact .bind (.of_tells (.of_records
      (fun tag => Event.tagUnknown tag (Session.pathText path)) rendering.unknown)) fun _ =>
        .of_pure _

/-- What is left when a template was to be installed: logging keeps away as before, and if it
failed, the files are the same. -/
def Attempted {α : Type} (places : Path → Prop) (before : World) (result : Except Failure α)
    (after : World) : Prop :=
  after.Undisturbed places ∧ ∀ failure, result = .error failure →
    ∀ place, places place → before.files.SameFile after.files place

lemma attempted_of_shows {α : Type} {result : Except Failure α} {after : World}
    (h : after.Shows places world.files) : Attempted places world result after :=
  ⟨h.undisturbed, fun _ _ place hplace => .of_eq (h.node place hplace)⟩

/-- Both branches of an installation read a template and replace the file by its rendering. -/
lemma ends_rendering (hquiet : world.Undisturbed places)
    (hplaces : ∀ own, path.Own own → ∀ below, places (own ++ below))
    (hsettled : world.files.SettledAt path) (source : Path) {ending : Option Text}
    (hending : ending = none ∨ ending = some backupEnding ∧ source = path) :
    (do
      let rendering ← renderFile path encoding texts (← Session.readBytes source)
      Session.writeBytes path rendering.content ending
      Journal.record (.linesReplaced rendering.replaced (Session.pathText path))
      return rendering.replaced : Session Nat).Ends world (Attempted places world) := by
  apply (Session.looks_readBytes source).ends_bind
  swap
  · exact fun failure => attempted_of_shows hquiet.shows
  intro template htemplate
  have hread := Session.result_readBytes htemplate
  apply (spares_renderFile template world world.files hquiet.shows).bind
  swap
  · exact fun failure after hafter => attempted_of_shows hafter
  intro rendering middle hmiddle
  have hown : ∀ own, Replacement.Uses ⟨path, rendering.content, ending⟩ own → path.Own own :=
    fun own => Replacement.own_of_uses (hending.imp_right (·.1))
  -- a backup is made of the file that was read, and that is no directory
  have hfree : Replacement.keepsBackup ⟨path, rendering.content, ending⟩ →
      world.files.get? path ≠ some .directory := by
    intro hkeeps hdirectory
    rcases hending with rfl | ⟨-, rfl⟩
    · cases hkeeps
    · rw [FileTree.read, hdirectory] at hread
      cases hread
  rw [Session.writeBytes, bind_assoc]
  apply (Replacement.ends_replaceFile hmiddle (fun own huses => hplaces own (hown own huses))
    (fun own huses => hsettled own (hown own huses)) hfree).bind
  · rintro _ last ⟨hlast, -⟩
    have htells : Session.Tells places (do
        Journal.record (.bytesWritten rendering.content.length (Session.pathText path))
        Journal.record (.linesReplaced rendering.replaced (Session.pathText path))
        return rendering.replaced : Session Nat) :=
      (Session.Tells.of_record _).bind fun _ => (Session.Tells.of_record _).bind fun _ => .of_pure _
    apply (htells last last.files hlast.shows).mono
    rintro _ final ⟨⟨_, rfl⟩, hfinal⟩
    refine ⟨hfinal.undisturbed, ?_⟩
    rintro failure ⟨⟩
  · rintro failure last ⟨hlast, hleaves⟩
    exact ⟨hlast, fun _ _ => hleaves⟩

lemma install_attempted (hquiet : world.Undisturbed places)
    (hplaces : ∀ own, path.Own own → ∀ below, places (own ++ below))
    (hsettled : world.files.SettledAt path) :
    (install path encoding texts).Ends world (Attempted places world) := by
  have hfailure : ∀ failure, Attempted places world (.error failure : Except Failure Nat) world :=
    fun _ => attempted_of_shows hquiet.shows
  unfold install
  rw [Session.backupPath]
  rcases path.withEnding?_backupEnding with hnone | hsome
  · rw [hnone]
    exact hfailure _
  rw [hsome]
  simp only [pure_bind]
  apply (Session.looks_holds path.backup).ends_bind _ hfailure
  intro found hfound
  cases found with
  | true =>
    rw [if_pos rfl]
    exact ends_rendering hquiet hplaces hsettled path.backup (.inl rfl)
  | false =>
    rw [if_neg Bool.false_ne_true]
    exact ends_rendering hquiet hplaces hsettled path (.inr ⟨rfl, rfl⟩)

/-- To move a backup over its file takes the streams along that are open below, and none of them is
open in the places. -/
lemma ends_renameFile_backup {files : FileTree} (hquiet : world.Undisturbed places)
    (hbackup : ∀ below, places (path.backup ++ below))
    (hrename : world.files.rename path.backup path = .ok files) :
    (Session.renameFile path.backup path).Ends world fun result after =>
      result = .ok () ∧ after.Shows places files := by
  apply (ends_renameFile hrename).mono
  rintro _ _ ⟨rfl, rfl⟩
  refine ⟨rfl, ⟨hquiet.handlers, fun place hplace => ?_⟩, fun _ _ => rfl⟩
  exact (hquiet.streams place hplace).follow_of_source
    (fun below _ => hquiet.streams _ (hbackup below)) world.files

lemma ends_renameFile_of_error {source target : Path} {error : FileError}
    (hrename : world.files.rename source target = .error error) :
    (Session.renameFile source target).Ends world fun result after =>
      result = .error (.file error) ∧ after = world := by
  unfold Session.renameFile
  apply Session.ends_get_bind
  rw [hrename]
  exact ⟨rfl, rfl⟩

/-- What restoring leaves: logging keeps away as before, and where there was a backup and nothing
failed, it was moved back. -/
def Moved (places : Path → Prop) (path : Path) (before : World) (result : Except Failure Bool)
    (after : World) : Prop :=
  after.Undisturbed places ∧
    ((∃ restored, result = .ok restored) ∧ before.files.contains path.backup = true →
      before.files.Restored places path after.files) ∧
    (¬((∃ restored, result = .ok restored) ∧ before.files.contains path.backup = true) →
      ∀ place, places place → before.files.SameFile after.files place)

lemma restore_moved (hquiet : world.Undisturbed places)
    (hplaces : ∀ own, path.Own own → ∀ below, places (own ++ below))
    (hsettled : world.files.SettledAt path) :
    (restore path).Ends world (Moved places path world) := by
  have hfailure : ∀ failure, Moved places path world (.error failure) world := by
    intro failure
    refine ⟨hquiet, ?_, fun _ _ _ => .of_eq rfl⟩
    rintro ⟨⟨_, ⟨⟩⟩, -⟩
  have htells : ∀ (event : Event) (restored : Bool), Session.Tells places (do
      Journal.record event
      return restored : Session Bool) :=
    fun event restored => (Session.Tells.of_record event).bind fun _ => .of_pure restored
  unfold restore
  rw [Session.backupPath]
  rcases path.withEnding?_backupEnding with hnone | hsome
  · rw [hnone]
    exact hfailure _
  have hpath : path ≠ [] := by
    rintro rfl
    cases hsome
  rw [hsome]
  simp only [pure_bind]
  apply (Session.looks_holds path.backup).ends_bind _ hfailure
  intro found hfound
  have hfound := Session.result_holds hfound
  cases found with
  | false =>
    rw [if_neg Bool.false_ne_true]
    apply (htells _ _ world world.files hquiet.shows).mono
    rintro result after ⟨-, hafter⟩
    refine ⟨hafter.undisturbed, ?_, fun _ place hplace => .of_eq (hafter.node place hplace)⟩
    rintro ⟨-, hthere⟩
    rw [← hfound] at hthere
    cases hthere
  | true =>
    rw [if_pos rfl]
    cases hrename : world.files.rename path.backup path with
    | error error =>
      apply (ends_renameFile_of_error hrename).bind
      · rintro _ _ ⟨⟨⟩, -⟩
      · rintro failure _ ⟨-, rfl⟩
        exact hfailure failure
    | ok files =>
      have hrestored : world.files.Restored places path files :=
        FileTree.restored_of_rename hpath hsettled hrename
      apply (ends_renameFile_backup hquiet (hplaces _ .backup) hrename).bind
      · rintro _ moved ⟨-, hmoved⟩
        apply (htells _ _ moved files hmoved).mono
        rintro _ after ⟨⟨restored, rfl⟩, hafter⟩
        refine ⟨hafter.undisturbed, fun _ => ?_, fun hno => (hno ⟨⟨_, rfl⟩, hfound.symm⟩).elim⟩
        exact hrestored.congr hplaces hafter.node
      · rintro _ _ ⟨⟨⟩, -⟩

end Template

namespace Command

/-- A command fails with something else than a refusal. -/
def Fails (world : World) (command : Command) : Prop :=
  ∃ failure, (command.execute.run.run world).1 = .error failure ∧ failure.isRefusal = false

/-- What an exit code tells of a command that is carried out in a world. -/
structure Coded (world : World) (command : Command) (code : Nat) : Prop where
  refused : code = 2 ↔ command.Refused world
  failed : code = 1 ↔ command.Fails world ∨ command.Misses world
  done : code = 0 ↔ ¬command.Refused world ∧ ¬command.Fails world ∧ ¬command.Misses world

/-- The exit code for what a command ends with. -/
def exitCode : Except Failure Outcome → Nat
  | .ok outcome => outcome.code
  | .error failure => if failure.isRefusal then 2 else 1

lemma exitCode_error (failure : Failure) :
    exitCode (.error failure) = if failure.isRefusal then 2 else 1 :=
  rfl

lemma coded (command : Command) (world : World) :
    command.Coded world (exitCode (command.execute.run.run world).1) := by
  have hrefused := refuses_execute_iff command world
  rcases hrun : command.execute.run.run world with ⟨failure | outcome, after⟩
  · rw [Session.refuses_iff_of_error hrun] at hrefused
    have hfails : command.Fails world ↔ failure.isRefusal = false := by
      rw [Fails, hrun]
      simp
    dsimp only
    rw [exitCode_error]
    cases hrefusal : failure.isRefusal with
    | true =>
      have hthis := hrefused.1 hrefusal
      constructor <;> simp [hthis, hfails, hrefusal, hthis.not_misses]
    | false =>
      constructor <;> simp [← hrefused, hfails, hrefusal]
  · have hthis := hrefused.not.1 (Session.not_refuses_of_ok hrun)
    have hfails : ¬command.Fails world := by
      rw [Fails, hrun]
      simp
    have hcode := ends_execute command world
    rw [Session.Ends, hrun] at hcode
    dsimp only [exitCode]
    rcases hcode outcome rfl with ⟨hcode, hmisses⟩ | ⟨hcode, hmisses⟩
    · constructor <;> simp [hcode, hthis, hfails, hmisses]
    · constructor <;> simp [hcode, hthis, hfails, hmisses]

/-- A name stands for a file that has a backup. -/
def Backed (world : World) (file : Text) (path : Path) : Prop :=
  ((Session.resolve file).run.run world).1 = .ok path ∧ world.files.contains path.backup = true

/-- Where a command installs or restores a file, what it can change and all that is below is among
some places. -/
def Within (places : Path → Prop) (world : World) : Command → Prop
  | render file _ | restore file => ∀ path, ((Session.resolve file).run.run world).1 = .ok path →
    ∀ own, path.Own own → ∀ below, places (own ++ below)
  | dump .. | get .. | define .. => True

/-- What a command leaves of the files in some places, when it ends with an exit code. -/
def Leaves (places : Path → Prop) (before : World) (code : Nat) (after : FileTree) :
    Command → Prop
  | dump .. | get .. => ∀ place, places place → before.files.SameFile after place
  | render .. => code ≠ 0 → ∀ place, places place → before.files.SameFile after place
  | restore file =>
    (code = 0 → ∀ path, Backed before file path → before.files.Restored places path after) ∧
      (code ≠ 0 ∨ (∀ path, ¬Backed before file path) →
        ∀ place, places place → before.files.SameFile after place)
  | define .. => True

variable {places : Path → Prop} {world ready : World} {command : Command} {code : Nat}
  {after last : FileTree}

/-- Only how the places look counts. -/
lemma Leaves.congr (h : command.Leaves places world code after)
    (hwithin : command.Within places world)
    (hlast : ∀ place, places place → last.get? place = after.get? place) :
    command.Leaves places world code last := by
  have hsame : (∀ place, places place → world.files.SameFile after place) →
      ∀ place, places place → world.files.SameFile last place :=
    fun hafter place hplace => (hafter place hplace).trans (.of_eq (hlast place hplace))
  cases command with
  | dump file scope asJson => exact hsame h
  | get file key default => exact hsame h
  | render file tags => exact fun hcode => hsame (h hcode)
  | define => trivial
  | restore file =>
    exact ⟨fun hcode path hbacked =>
      (h.1 hcode path hbacked).congr (hwithin path hbacked.1) hlast, fun hno => hsame (h.2 hno)⟩

lemma Within.of_prepared (hready : World.Prepared places world ready)
    (h : command.Within places world) : command.Within places ready := by
  cases command with
  | dump | get | define => trivial
  | render file tags =>
    intro path hpath
    rw [hready.toSameSetting.result_resolve file] at hpath
    exact h path hpath
  | restore file =>
    intro path hpath
    rw [hready.toSameSetting.result_resolve file] at hpath
    exact h path hpath

/-- Setting up the journal before does not change what is left. -/
lemma Leaves.of_prepared (hready : World.Prepared places world ready)
    (hwithin : command.Within places world) (h : command.Leaves places ready code after) :
    command.Leaves places world code after := by
  have hsame : (∀ place, places place → ready.files.SameFile after place) →
      ∀ place, places place → world.files.SameFile after place :=
    fun hafter place hplace => (hready.same place hplace).trans (hafter place hplace)
  cases command with
  | dump file scope asJson => exact hsame h
  | get file key default => exact hsame h
  | render file tags => exact fun hcode => hsame (h hcode)
  | define => trivial
  | restore file =>
    have hbacked : ∀ path, Backed world file path ↔ Backed ready file path := by
      intro path
      unfold Backed
      rw [hready.toSameSetting.result_resolve file]
      refine and_congr_right fun hpath => ?_
      rw [FileTree.contains, FileTree.contains,
        hready.node _ fun below => hwithin path hpath _ .backup below]
    refine ⟨fun hcode path hpath => ?_, fun hno => hsame (h.2 ?_)⟩
    · have hrestored := h.1 hcode path ((hbacked path).1 hpath)
      refine ⟨fun below content => ?_, hrestored.away, fun place hplace htarget hbackup => ?_⟩
      · rw [hrestored.moved below content]
        exact hready.same _ (hwithin path hpath.1 _ .backup below) content
      · exact (hready.same place hplace).trans (hrestored.others place hplace htarget hbackup)
    · exact hno.imp_right fun hnone path hpath => hnone path ((hbacked path).2 hpath)

/-- Recording an event behind does not change what is left, where logging keeps away. -/
lemma Leaves.and_deliver {left : World} (h : command.Leaves places world code left.files)
    (hwithin : command.Within places world) (hquiet : left.Undisturbed places) :
    command.Leaves places world code left.files ∧
      ∀ event : Event, command.Leaves places world code (left.deliver event.toRecord).files :=
  ⟨h, fun event => h.congr hwithin (hquiet.shows.deliver event).node⟩

/-- A command leaves what its exit code promises, also when an event is recorded behind. -/
lemma ends_leaves (command : Command) (hquiet : world.Undisturbed places)
    (hwithin : command.Within places world)
    (hsettled : ∀ path, (∀ own, path.Own own → ∀ below, places (own ++ below)) →
      world.files.SettledAt path) :
    command.execute.Ends world fun result after =>
      command.Leaves places world (exitCode result) after.files ∧
        ∀ event : Event,
          command.Leaves places world (exitCode result) (after.deliver event.toRecord).files := by
  have hstays : ∀ place, places place → world.files.SameFile world.files place :=
    fun _ _ => .of_eq rfl
  cases command with
  | define => exact ⟨trivial, fun _ => trivial⟩
  | dump file scope asJson =>
    apply (spares_dump file scope asJson world world.files hquiet.shows).mono
    intro result after hafter
    exact Leaves.and_deliver (fun place hplace => .of_eq (hafter.node place hplace)) hwithin
      hafter.undisturbed
  | get file key default =>
    apply (spares_get file key default world world.files hquiet.shows).mono
    intro result after hafter
    exact Leaves.and_deliver (fun place hplace => .of_eq (hafter.node place hplace)) hwithin
      hafter.undisturbed
  | render file tags =>
    have hfailure : ∀ failure, (render file tags).Leaves places world (exitCode (.error failure))
        world.files ∧ ∀ event : Event, (render file tags).Leaves places world
          (exitCode (.error failure)) (world.deliver event.toRecord).files :=
      fun failure => Leaves.and_deliver (fun _ => hstays) hwithin hquiet
    unfold execute
    apply (Session.looks_resolve file).ends_bind _ hfailure
    intro path hpath
    cases hread : tags.mapM tagText with
    | error failure => exact hfailure failure
    | ok texts =>
      have hown := hwithin path hpath
      rw [Session.ofExcept_ok_bind]
      apply (Template.install_attempted hquiet hown (hsettled path hown)).bind
      · rintro count after ⟨hafter, -⟩
        exact Leaves.and_deliver (fun hcode => (hcode rfl).elim) hwithin hafter
      · rintro failure after ⟨hafter, hsame⟩
        exact Leaves.and_deliver (fun _ => hsame failure rfl) hwithin hafter
  | restore file =>
    have hfailed : ∀ failure, exitCode (.error failure) ≠ 0 := by
      intro failure
      rw [exitCode_error]
      split <;> simp
    unfold execute
    apply (Session.looks_resolve file).ends_bind
    · intro path hpath
      have hown := hwithin path hpath
      have hbacked : ∀ other, Backed world file other →
          other = path ∧ world.files.contains path.backup = true := by
        rintro other ⟨hother, hbackup⟩
        rw [hpath] at hother
        cases hother
        exact ⟨rfl, hbackup⟩
      apply (Template.restore_moved hquiet hown (hsettled path hown)).bind
      · rintro restored after ⟨hafter, hmoved, hsame⟩
        refine Leaves.and_deliver ⟨fun _ other hother => ?_, fun hno => ?_⟩ hwithin hafter
        · obtain ⟨rfl, hbackup⟩ := hbacked other hother
          exact hmoved ⟨⟨restored, rfl⟩, hbackup⟩
        · apply hsame
          rintro ⟨-, hbackup⟩
          exact hno.elim (fun hcode => hcode rfl) fun hnone => hnone path ⟨hpath, hbackup⟩
      · rintro failure after ⟨hafter, -, hsame⟩
        refine Leaves.and_deliver ⟨fun hcode => (hfailed failure hcode).elim, fun _ => ?_⟩ hwithin
          hafter
        apply hsame
        rintro ⟨⟨_, ⟨⟩⟩, -⟩
    · intro failure
      exact Leaves.and_deliver ⟨fun hcode => (hfailed failure hcode).elim, fun _ => hstays⟩ hwithin
        hquiet

end Command

namespace Command.Invocation

variable (invocation : Invocation) (world : World)

/-- How the journal is to be set up for an invocation. -/
def logging : Log.Options :=
  { consoleLevel := .name invocation.level, file := invocation.logFile }

/-- The journal of an invocation can be set up: its level is known and the file for records, if one
is wanted, can be had. -/
def CanLog : Prop :=
  (Log.levelOfName? invocation.level).isSome ∧
    ∀ file, invocation.logging.fileName? = some file → invocation.logging.FileUsable world file

/-- The world in which the journal of an invocation was set up. -/
def ready : World :=
  ((Log.configure invocation.logging).run.run world).2

/-- The path of the file for records. -/
def LogsTo (path : Path) : Prop :=
  ∃ file, invocation.logging.fileName? = some file ∧
    ((Session.resolve file).run.run world).1 = .ok path

/-- What an invocation does when the journal is set up. -/
def carryOut : Session Outcome := do
  match ← Session.attempt invocation.command.execute with
  | .ok outcome => return outcome
  | .error failure =>
    if failure.isRefusal then
      Journal.record (.commandRefused failure.message)
      return ⟨2, []⟩
    else
      Journal.record (.commandFailed failure.message)
      return ⟨1, []⟩

lemma execute_eq : invocation.execute =
    Log.configure invocation.logging >>= fun _ => invocation.carryOut :=
  rfl

/-- Whatever becomes of the command, the invocation ends with an exit code, and at most a record is
made behind. -/
lemma ends_carryOut : invocation.carryOut.Ends world fun result after => ∃ outcome,
    result = .ok outcome ∧
      outcome.code = exitCode (invocation.command.execute.run.run world).1 ∧
      (after = (invocation.command.execute.run.run world).2 ∨ ∃ event : Event,
        after = (invocation.command.execute.run.run world).2.deliver event.toRecord) := by
  unfold Session.Ends
  rw [carryOut, Session.run_bind, Session.run_attempt]
  rcases invocation.command.execute.run.run world with ⟨failure | outcome, left⟩
  · dsimp only
    rw [exitCode_error]
    split
    · exact ⟨⟨2, []⟩, rfl, rfl, .inr ⟨_, rfl⟩⟩
    · exact ⟨⟨1, []⟩, rfl, rfl, .inr ⟨_, rfl⟩⟩
  · exact ⟨outcome, rfl, rfl, .inl rfl⟩

variable {invocation world}

lemma canLog_iff : invocation.CanLog world ↔ (Log.configure invocation.logging).Succeeds world := by
  have hlevel : (Log.levelOfName? invocation.level).isSome ↔
      ∃ level, invocation.logging.consoleLevel.resolve = .ok level := by
    rw [logging, Log.LevelChoice.resolve]
    cases Log.levelOfName? invocation.level with
    | none => simp
    | some level => simp
  rw [CanLog, hlevel, Log.succeeds_configure_iff rfl rfl]

lemma settledAt_of_prepared {places : Path → Prop} {ready : World} (hsound : world.files.Sound)
    (hready : World.Prepared places world ready) {path : Path}
    (hown : ∀ own, path.Own own → ∀ below, places (own ++ below)) :
    ready.files.SettledAt path := by
  intro own huses hfree
  rw [hready.node own (hown own huses)] at hfree
  have hbare : world.files.Bare own := by
    intro below hbelow
    by_contra hthere
    exact hfree (hsound own below hbelow (eq_true_of_ne_false hthere))
  -- no directory was made below either, for there all places are among the given ones
  refine hbare.congr fun below _ => hready.node _ fun deeper => ?_
  rw [List.append_assoc]
  exact hown own huses (below ++ deeper)

/-- An invocation ends with an exit code exactly when its journal can be set up; else the error is
not caught. The code is two when the command is refused, one when it fails otherwise or misses what
it asks for, and zero else. To dump and to look up leave every file alone, and so do a rendering
that fails and a restoring that fails or finds no backup; a restoring that ends well moves the
backup back. This is about places that logging keeps away from, the file for records not among
them, where everything stands in a directory. -/
theorem ends_with_code (invocation : Invocation) (world : World) :
    (invocation.execute.Succeeds world ↔ invocation.CanLog world) ∧
      invocation.execute.Ends world fun result after => ∀ outcome, result = .ok outcome →
        invocation.command.Coded (invocation.ready world) outcome.code ∧
          ∀ places : Path → Prop, world.files.Sound → world.Unlogged places →
            (∀ path, invocation.LogsTo world path → ¬places path) →
            invocation.command.Within places world →
              invocation.command.Leaves places world outcome.code after.files := by
  constructor
  · rw [canLog_iff, execute_eq, Session.succeeds_bind_iff_of_always]
    intro logger after
    obtain ⟨outcome, houtcome, -⟩ := invocation.ends_carryOut after
    exact ⟨outcome, houtcome⟩
  · have hsetup : (Log.configure invocation.logging).Ends world fun _ after =>
        after = invocation.ready world := rfl
    rw [execute_eq]
    apply hsetup.bind
    · rintro logger _ rfl
      apply (invocation.ends_carryOut _).mono
      rintro _ after ⟨outcome, rfl, hcode, hafter⟩ _ ⟨⟩
      rw [hcode]
      refine ⟨coded invocation.command _, fun places hsound hworld hlog hwithin => ?_⟩
      -- the command runs where the journal was set up, but what it leaves is compared with before
      have hready : World.Prepared places world (invocation.ready world) :=
        Log.ends_configure rfl rfl rfl (fun file path hfile hpath => hlog path ⟨file, hfile, hpath⟩)
          hworld
      have hleaves := ends_leaves invocation.command hready.unlogged.undisturbed
        (hwithin.of_prepared hready) fun path hown => settledAt_of_prepared hsound hready hown
      apply Leaves.of_prepared hready hwithin
      rcases hafter with rfl | ⟨event, rfl⟩
      · exact hleaves.1
      · exact hleaves.2 event
    · rintro failure after - outcome ⟨⟩

/-- A file with a backup, and another file. -/
def backedWorld : World where
  machine := default
  files := ⟨[(["a.ini".toList], .file [110]), (["a.ini.bak".toList], .file [111]),
    (["b.ini".toList], .file [112])]⟩

/-- The file is restored, with records in a file that is made for them. -/
def restoring : Invocation where
  level := "INFO".toList
  logFile := some "logs/run.log".toList
  command := .restore "a.ini".toList

theorem ends_with_code_restoring :
    restoring.CanLog backedWorld ∧ restoring.execute.Ends backedWorld fun result after =>
      result = .ok ⟨0, "Restored\n".toList⟩ ∧
      after.files.get? ["a.ini".toList] = some (.file [111]) ∧
      after.files.contains ["a.ini.bak".toList] = false ∧
      after.files.get? ["b.ini".toList] = some (.file [112]) := by
  have hresult : (restoring.execute.run.run backedWorld).1 = .ok ⟨0, "Restored\n".toList⟩ := by
    decide +kernel
  obtain ⟨hsucceeds, hends⟩ := ends_with_code restoring backedWorld
  have hpath : ((Session.resolve "a.ini".toList).run.run backedWorld).1 =
      .ok ["a.ini".toList] := by decide +kernel
  have hlog : ∀ path, restoring.LogsTo backedWorld path →
      path = ["logs".toList, "run.log".toList] := by
    rintro path ⟨file, hfile, hlog⟩
    cases hfile
    have hnamed : ((Session.resolve "logs/run.log".toList).run.run backedWorld).1 =
        .ok ["logs".toList, "run.log".toList] := by decide +kernel
    rw [hnamed] at hlog
    exact (Except.ok.inj hlog).symm
  have hwithin : restoring.command.Within (fun place => place.head? ≠ some "logs".toList)
      backedWorld := by
    rintro path hpath' own huses below
    rw [hpath] at hpath'
    cases hpath'
    cases huses <;> simp [Path.backup, Path.name, Path.parent]
  have hleaves := (hends _ hresult).2 (fun place => place.head? ≠ some "logs".toList)
    (FileTree.sound_of_ancestors (by decide +kernel)) (World.unlogged_of_silent rfl rfl)
    (fun path hpath => by rw [hlog path hpath]; decide) hwithin
  have hrestored := hleaves.1 rfl ["a.ini".toList] ⟨hpath, by decide +kernel⟩
  refine ⟨hsucceeds.1 ⟨_, hresult⟩, hresult, ?_, ?_, ?_⟩
  · exact (hrestored.moved [] [111]).2 (by decide +kernel)
  · exact hrestored.away []
  · exact (hrestored.others ["b.ini".toList] (by decide) (by decide) (by decide +kernel) _).2
      (by decide +kernel)

/-- A directory, and a file that is to be dumped. -/
def logsWorld : World where
  machine := default
  files := ⟨[(["logs".toList], .directory), (["a.ini".toList], .file [])]⟩

/-- The directory is taken for the file for records. -/
def dumping : Invocation where
  logFile := some "logs".toList
  command := .dump "a.ini".toList none false

theorem error_escapes_dumping :
    (dumping.execute.run.run logsWorld).1 = .error (.file .isDirectory) := by
  decide +kernel

end Command.Invocation

end Keyfile
