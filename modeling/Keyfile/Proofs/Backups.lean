import Keyfile.Proofs.LoggedFiles
import Keyfile.Template.Installation

/-!
# Backups of replaced files

A replacement that keeps a backup can stop after any of its steps. The previous contents then stand
under the file's own path or under that of the backup, and a replacement without a backup leaves a
backup alone that is already there.
-/

namespace Keyfile

/-- Where the backup of a template file stands. -/
def Path.backup (path : Path) : Path :=
  path.parent ++ [path.name ++ Template.backupEnding]

/-- The paths that the replacing and restoring of a file can change: its own, that of its backup
and those of temporary files. -/
inductive Path.Own (path : Path) : Path → Prop
  | target : Own path path
  | backup : Own path path.backup
  | temporary (length : Nat) :
      Own path (path.parent ++ [path.name ++ '.' :: List.replicate length '_'])

namespace Path

variable {path own : Path}

lemma exists_parent_name (hpath : path ≠ []) : ∃ parent name, path = parent ++ [name] :=
  ⟨path.dropLast, path.getLast hpath, (List.dropLast_append_getLast hpath).symm⟩

lemma name_append_singleton (parent : Path) (name : Text) :
    Path.name (parent ++ [name]) = name := by
  simp [Path.name]

lemma parent_append_singleton (parent : Path) (name : Text) :
    Path.parent (parent ++ [name]) = parent :=
  List.dropLast_concat

lemma Own.length_eq (hpath : path ≠ []) (h : path.Own own) : own.length = path.length := by
  obtain ⟨parent, name, rfl⟩ := exists_parent_name hpath
  cases h with
  | target => rfl
  | backup => simp [Path.backup, parent_append_singleton]
  | temporary length => simp [parent_append_singleton]

lemma backup_ne (hpath : path ≠ []) : path.backup ≠ path := by
  obtain ⟨parent, name, rfl⟩ := exists_parent_name hpath
  simp [Path.backup, parent_append_singleton, name_append_singleton, Template.backupEnding]

lemma temporary_ne_backup (path : Path) (tree : FileTree) :
    Replacement.temporary tree path ≠ path.backup := by
  intro h
  have hname := List.append_cancel_left h
  generalize (tree.nodes.map fun node => node.1.name.length).foldl max path.name.length = longest
    at hname
  cases longest with
  | zero => simp [Template.backupEnding] at hname
  | succ longest => simp [Template.backupEnding, List.replicate_succ] at hname

lemma own_temporary (tree : FileTree) (path : Path) :
    path.Own (Replacement.temporary tree path) :=
  .temporary _

/-- A piece that holds no mark stays at the end of the last part. -/
lemma exists_splitAt_append {mark : Char} {ending : Text} (hmark : mark ∉ ending) (t : Text) :
    ∃ before last, Text.splitAt mark (t ++ ending) = before ++ [last ++ ending] ∧
      (before = [] → last = t) := by
  induction t with
  | nil =>
    refine ⟨[], [], ?_, fun _ => rfl⟩
    induction ending with
    | nil => rfl
    | cons c ending ih =>
      obtain ⟨hc, hending⟩ : mark ≠ c ∧ mark ∉ ending := by simpa using hmark
      have ih : Text.splitAt mark ending = [ending] := by simpa using ih hending
      simp [Text.splitAt, hc.symm, ih]
  | cons c t ih =>
    obtain ⟨before, last, hsplit, hwhole⟩ := ih
    rw [List.cons_append, Text.splitAt]
    by_cases hc : c = mark
    · rw [if_pos hc, hsplit]
      exact ⟨[] :: before, last, rfl, by simp⟩
    · rw [if_neg hc, hsplit]
      cases before with
      | nil => exact ⟨[], c :: last, rfl, by simp [hwhole]⟩
      | cons first before => exact ⟨(c :: first) :: before, last, rfl, by simp⟩

/-- The name of a backup is found unless the file cannot have one. -/
lemma withEnding?_backupEnding (path : Path) :
    path.withEnding? Template.backupEnding = none ∨
      path.withEnding? Template.backupEnding = some ⟨path.backup, false⟩ := by
  have hmark : '/' ∉ Template.backupEnding := by decide
  obtain ⟨before, last, hsplit, hwhole⟩ := exists_splitAt_append hmark path.name
  unfold withEnding?
  split
  · exact .inl rfl
  · rw [hsplit]
    cases before with
    | nil =>
      rw [hwhole rfl]
      exact .inr rfl
    | cons first rest =>
      have hperiod : last ++ Template.backupEnding ≠ ['.'] := by
        intro h
        have hlength := congrArg List.length h
        simp [Template.backupEnding] at hlength
      have hstep : isStep (last ++ Template.backupEnding) = true := by
        rw [isStep, Bool.and_eq_true, bne_iff_ne, bne_iff_ne]
        exact ⟨by simp [Template.backupEnding], hperiod⟩
      left
      simp [hstep]

/-- Of two paths of one length neither lies below the other. -/
lemma not_prefix_of_length {a b : Path} (hlength : a.length = b.length) (hne : a ≠ b) :
    ¬a <+: b :=
  fun h => hne (h.eq_of_length hlength)

end Path

namespace FileTree

variable {tree : FileTree} {source target : Path}

/-- Nothing stands any more at or below a place that was moved away. -/
lemma get?_move_away (tree : FileTree) (hsource : source ≠ []) (below : Path)
    (htarget : ¬target <+: source ++ below) :
    (tree.move source target).get? (source ++ below) = none := by
  rw [get?, if_neg (by simp [hsource]), move, List.lookup_eq_none_iff]
  intro node hnode
  obtain ⟨before, -, rfl⟩ := List.mem_map.1 hnode
  rw [bne_iff_ne]
  split
  · intro heq
    exact htarget ⟨_, heq.symm⟩
  · rename_i hbelow
    intro heq
    exact hbelow (List.isPrefixOf_iff_prefix.2 ⟨below, heq⟩)

lemma get?_move_source (tree : FileTree) (hsource : source ≠ []) (htarget : ¬target <+: source) :
    (tree.move source target).get? source = none := by
  rw [← List.append_nil source] at htarget
  have haway := get?_move_away tree hsource [] htarget
  rwa [List.append_nil] at haway

lemma rename_file_eq {content : Bytes} (hsource : tree.get? source = some (.file content))
    (htarget : tree.get? target ≠ some .directory) (hne : source ≠ target) :
    tree.rename source target =
      if isTooLong target then .error .nameTooLong else .ok (tree.move source target) := by
  by_cases hroom : isTooLong target = true
  · rw [if_pos hroom, rename, hsource]
    split
    · rename_i h
      cases h
    · rename_i h
      exact absurd h htarget
    · rename_i h _
      cases h
    · rename_i h _
      cases h
    · rw [if_neg hne, if_pos hroom]
  · rw [if_neg hroom, rename_file hsource htarget hne (eq_false_of_ne_true hroom)]

end FileTree

/-- While steps are made a property holds of every tree, and when none fails another one holds of
the last tree. -/
structure Passes (during finally_ : FileTree → Prop) (tree : FileTree)
    (steps : List ReplacementStep) : Prop where
  during : ∀ count, during (runSteps tree (steps.take count)).1
  last : (runSteps tree steps).2 = .ok () → finally_ (runSteps tree steps).1

namespace Passes

variable {during finally_ : FileTree → Prop} {tree : FileTree}

lemma nil (hduring : during tree) (hlast : finally_ tree) : Passes during finally_ tree [] where
  during count := by
    rw [List.take_nil]
    exact hduring
  last _ := hlast

lemma cons {step : ReplacementStep} {steps : List ReplacementStep} (hduring : during tree)
    (hstep : during (step.apply tree).1)
    (hrest : (step.apply tree).2 = .ok () → Passes during finally_ (step.apply tree).1 steps) :
    Passes during finally_ tree (step :: steps) := by
  rcases happly : step.apply tree with ⟨next, error | _⟩
  · rw [happly] at hstep
    constructor
    · intro count
      cases count with
      | zero => exact hduring
      | succ count =>
        rw [List.take_succ_cons, runSteps, happly]
        exact hstep
    · intro hok
      rw [runSteps, happly] at hok
      cases hok
  · rw [happly] at hrest
    have hpasses := hrest rfl
    constructor
    · intro count
      cases count with
      | zero => exact hduring
      | succ count =>
        rw [List.take_succ_cons, runSteps, happly]
        exact hpasses.during count
    · rw [runSteps, happly]
      exact hpasses.last

lemma whole {steps : List ReplacementStep} (h : Passes during finally_ tree steps) :
    during (runSteps tree steps).1 := by
  have hall := h.during steps.length
  rwa [List.take_length] at hall

end Passes

/-- The moves that steps make are moves of single steps. -/
lemma forall_movesOf {p : Path × Path → Prop} {steps : List ReplacementStep}
    (hsteps : ∀ step ∈ steps, ∀ tree move, step.move? tree = some move → p move)
    (tree : FileTree) : ∀ move ∈ movesOf tree steps, p move := by
  induction steps generalizing tree with
  | nil =>
    intro move hmove
    cases hmove
  | cons step rest ih =>
    obtain ⟨hstep, hrest⟩ := List.forall_mem_cons.1 hsteps
    intro move hmove
    rw [movesOf] at hmove
    split at hmove
    · rcases List.mem_append.1 hmove with hmove | hmove
      · exact hstep tree move (Option.mem_toList.1 hmove)
      · exact ih hrest _ move hmove
    · cases hmove

/-- The original contents of a file stand under its path, and there is no backup. -/
structure FileTree.Original (path : Path) (content : Bytes) (tree : FileTree) : Prop where
  file : tree.get? path = some (.file content)
  backup : tree.get? path.backup = none

/-- The original contents of a file stand in its backup, which can be moved back. -/
structure FileTree.BackedUp (path : Path) (content : Bytes) (tree : FileTree) : Prop where
  named : path.withEnding? Template.backupEnding = some ⟨path.backup, false⟩
  backup : tree.get? path.backup = some (.file content)
  free : tree.get? path ≠ some .directory
  room : FileTree.isTooLong path = false

def FileTree.Kept (path : Path) (content : Bytes) (tree : FileTree) : Prop :=
  tree.Original path content ∨ tree.BackedUp path content

namespace FileTree

variable {tree next : FileTree} {path : Path} {original content : Bytes}

lemma Original.ne_nil (h : tree.Original path original) : path ≠ [] := by
  rintro rfl
  have hfile := h.file
  simp [get?] at hfile

lemma BackedUp.ne_nil (h : tree.BackedUp path original) : path ≠ [] :=
  ne_nil_of_get? h.free

lemma Original.congr (h : tree.Original path original) (hpath : next.get? path = tree.get? path)
    (hbackup : next.get? path.backup = tree.get? path.backup) : next.Original path original :=
  ⟨hpath.trans h.file, hbackup.trans h.backup⟩

lemma BackedUp.congr (h : tree.BackedUp path original) (hpath : next.get? path = tree.get? path)
    (hbackup : next.get? path.backup = tree.get? path.backup) : next.BackedUp path original :=
  ⟨h.named, hbackup.trans h.backup, hpath ▸ h.free, h.room⟩

lemma Kept.erase (h : tree.Kept path original) {other : Path} (hpath : path ≠ other)
    (hbackup : path.backup ≠ other) : (tree.erase other).Kept path original := by
  have hsame := get?_erase_of_ne tree hpath
  have hkept := get?_erase_of_ne tree hbackup
  exact h.imp (·.congr hsame hkept) (·.congr hsame hkept)

lemma Original.not_backedUp (h : tree.Original path original) :
    ¬tree.BackedUp path original := by
  intro hbacked
  have hboth := h.backup.symm.trans hbacked.backup
  cases hboth

/-- To ask for a backup that is not there can fail, when its path is too long. -/
lemma Original.holds_backup (h : tree.Original path original) :
    tree.holds path.backup = .ok false ∨ ∃ error, tree.holds path.backup = .error error := by
  have hcontains : tree.contains path.backup = false := by
    rw [contains, h.backup]
    rfl
  rw [holds, hcontains, if_neg Bool.false_ne_true]
  split
  · exact .inr ⟨_, rfl⟩
  · exact .inl rfl

lemma BackedUp.holds_backup (h : tree.BackedUp path original) :
    tree.holds path.backup = .ok true := by
  rw [holds, contains, h.backup]
  rfl

/-- The backup can be moved back, and then the original stands alone. -/
lemma BackedUp.rename (h : tree.BackedUp path original) :
    ∃ restored, tree.rename path.backup path = .ok restored ∧ restored.Original path original := by
  have hpath := h.ne_nil
  have hbackup : path.backup ≠ [] := by simp [Path.backup]
  have hne := path.backup_ne hpath
  have hlengths := Path.Own.length_eq hpath .backup
  refine ⟨_, rename_file h.backup h.free hne h.room, ?_, ?_⟩
  · rw [get?_move tree hbackup hpath hne, h.backup]
  · exact get?_move_source tree hbackup (Path.not_prefix_of_length hlengths.symm hne.symm)

end FileTree

namespace ReplacementStep

open FileTree

variable {tree : FileTree} {path temporary : Path} {original content : Bytes}

lemma apply_makeParent (tree : FileTree) (path : Path) :
    ((makeParent path).apply tree).1 = (tree.makeDirectories path.parent).1 ∧
      (((makeParent path).apply tree).2 = .ok () → leavesNoRoom path = false) := by
  rcases hmade : tree.makeDirectories path.parent with ⟨made, error | _⟩
  · have happly : (makeParent path).apply tree = (made, .error error) := by rw [apply, hmade]
    rw [happly]
    exact ⟨rfl, fun hok => by cases hok⟩
  · have happly : (makeParent path).apply tree =
        (made, if leavesNoRoom path then .error .nameTooLong else .ok ()) := by rw [apply, hmade]
    rw [happly]
    refine ⟨rfl, fun hok => ?_⟩
    by_cases hroom : leavesNoRoom path = true
    · simp [hroom] at hok
    · exact eq_false_of_ne_true hroom

lemma get?_makeParent (hpath : path ≠ []) {own : Path} (hown : path.Own own) :
    ((makeParent path).apply tree).1.get? own = tree.get? own := by
  rw [(apply_makeParent tree path).1]
  apply get?_makeDirectories
  rw [hown.length_eq hpath, Path.parent, List.length_dropLast]
  have hpos := List.length_pos_iff.2 hpath
  omega

/-- Moving the original to its backup either fails and changes nothing, or leaves only the backup
where the two stood. -/
lemma apply_moveToBackup (h : tree.Original path original) :
    (∃ error, (moveToBackup path Template.backupEnding).apply tree = (tree, .error error)) ∨
      path.withEnding? Template.backupEnding = some ⟨path.backup, false⟩ ∧
        (moveToBackup path Template.backupEnding).apply tree =
          (tree.move path path.backup, .ok ()) := by
  have hcontains : tree.contains path = true := by rw [contains, h.file]; rfl
  have hnameable : Path.isNameable Template.backupEnding = true := by decide
  rw [apply, moveToEnding, if_pos hcontains]
  rcases path.withEnding?_backupEnding with hnone | hsome
  · rw [hnone]
    exact .inl ⟨_, rfl⟩
  · rw [hsome, hnameable]
    have hfree : tree.get? path.backup ≠ some .directory := by simp [h.backup]
    have hrename := rename_file_eq h.file hfree (path.backup_ne h.ne_nil).symm
    simp only [Bool.not_true, Bool.false_eq_true, if_false, hrename]
    split
    · exact .inl ⟨_, rfl⟩
    · exact .inr ⟨trivial, rfl⟩

/-- The temporary file takes the place of the file. -/
lemma apply_install (hsource : tree.get? temporary = some (.file content))
    (hfree : tree.get? path ≠ some .directory) (hne : temporary ≠ path)
    (hroom : isTooLong path = false) :
    (install temporary path).apply tree = (tree.move temporary path, .ok ()) := by
  rw [apply, rename_file hsource hfree hne hroom, after]

end ReplacementStep

namespace Replacement

open FileTree ReplacementStep

variable {tree : FileTree} {path temporary : Path} {original : Bytes} (content : Bytes)

/-- A template file's backup never has the name of the temporary file. -/
lemma scratch_eq {ending : Option Text}
    (hending : ending = none ∨ ending = some Template.backupEnding) (tree : FileTree) :
    scratch ⟨path, content, ending⟩ tree = Replacement.temporary tree path := by
  rcases hending with rfl | rfl
  · exact scratch_of_none tree path content
  · have hbackup : backup? ⟨path, content, some Template.backupEnding⟩ ≠
        some (Replacement.temporary tree path) := by
      have hnamed : backup? ⟨path, content, some Template.backupEnding⟩ =
          (path.withEnding? Template.backupEnding).map (·.path) := rfl
      rw [hnamed]
      rcases path.withEnding?_backupEnding with hnone | hsome
      · simp [hnone]
      · simpa [hsome] using (path.temporary_ne_backup tree).symm
    exact if_neg hbackup

/-- After a replacement the backup has the original contents, and the file the new ones. -/
def Replaced (path : Path) (original content : Bytes) (tree : FileTree) : Prop :=
  tree.BackedUp path original ∧ tree.get? path = some (.file content)

/-- The last step, when the backup already has the original contents. -/
lemma passes_install (h : tree.BackedUp path original) (hown : path.Own temporary)
    (hsource : tree.get? temporary = some (.file content)) (hne : temporary ≠ path)
    (hbackup : temporary ≠ path.backup) :
    Passes (Kept path original) (Replaced path original content) tree
      [.install temporary path] := by
  have hpath := h.ne_nil
  have hlength := hown.length_eq hpath
  have htemporary : temporary ≠ [] := by
    rintro rfl
    exact hpath (List.length_eq_zero_iff.1 hlength.symm)
  have happly := apply_install hsource h.free hne h.room
  have hmoved : (tree.move temporary path).get? path = some (.file content) := by
    rw [get?_move tree htemporary hpath hne, hsource]
  have hkept : (tree.move temporary path).get? path.backup = tree.get? path.backup := by
    have hlengths := Path.Own.length_eq hpath .backup
    apply get?_move_of_apart
    · exact Path.not_prefix_of_length (by omega) hbackup
    · exact Path.not_prefix_of_length (by omega) (path.backup_ne hpath).symm
  have hreplaced : Replaced path original content (tree.move temporary path) := by
    refine ⟨⟨h.named, hkept.trans h.backup, ?_, h.room⟩, hmoved⟩
    rw [hmoved]
    simp
  apply Passes.cons (.inr h)
  · rw [happly]
    exact .inr hreplaced.1
  · intro _
    rw [happly]
    exact .nil (.inr hreplaced.1) hreplaced

/-- The first steps change what stands under the path of the temporary file alone. -/
lemma passes_prepared {during finally_ : FileTree → Prop} {rest : List ReplacementStep}
    (hpath : path ≠ []) (hown : path.Own temporary) (hne : temporary ≠ path)
    (hbackup : temporary ≠ path.backup)
    (hduring : ∀ next : FileTree, next.get? path = tree.get? path →
      next.get? path.backup = tree.get? path.backup → during next)
    (hrest : ∀ next : FileTree, next.get? path = tree.get? path →
      next.get? path.backup = tree.get? path.backup → isTooLong path = false →
        next.get? temporary = some (.file content) → Passes during finally_ next rest) :
    Passes during finally_ tree
      (.makeParent path :: .writeTemporary temporary content :: rest) := by
  have htemporary : temporary ≠ [] := by
    rintro rfl
    exact hpath (List.length_eq_zero_iff.1 (hown.length_eq hpath).symm)
  have hmade : ∀ own, path.Own own →
      ((makeParent path).apply tree).1.get? own = tree.get? own :=
    fun own => get?_makeParent hpath
  set made := ((makeParent path).apply tree).1
  have hput : ((writeTemporary temporary content).apply made).1 =
      made.put temporary (.file content) := rfl
  have hfile : (made.put temporary (.file content)).get? path = tree.get? path := by
    rw [get?_put_of_ne made hne.symm, hmade path .target]
  have hkept : (made.put temporary (.file content)).get? path.backup = tree.get? path.backup := by
    rw [get?_put_of_ne made hbackup.symm, hmade path.backup .backup]
  apply Passes.cons (hduring tree rfl rfl)
  · exact hduring made (hmade path .target) (hmade path.backup .backup)
  intro hok
  have hroom := isTooLong_of_room hpath ((apply_makeParent tree path).2 hok)
  apply Passes.cons
  · exact hduring made (hmade path .target) (hmade path.backup .backup)
  · exact hduring _ hfile hkept
  intro _
  exact hrest _ hfile hkept hroom (get?_put made htemporary (.file content))

/-- A replacement with a backup, from the original on. -/
lemma passes_of_original (h : tree.Original path original) (hown : path.Own temporary)
    (hne : temporary ≠ path) (hbackup : temporary ≠ path.backup) :
    Passes (Kept path original) (Replaced path original content) tree
      (steps ⟨path, content, some Template.backupEnding⟩ temporary) := by
  have hsteps : steps ⟨path, content, some Template.backupEnding⟩ temporary =
      [.makeParent path, .writeTemporary temporary content,
        .moveToBackup path Template.backupEnding, .install temporary path] := rfl
  have hpath := h.ne_nil
  have hlength := hown.length_eq hpath
  have hlengths := Path.Own.length_eq hpath .backup
  rw [hsteps]
  apply passes_prepared content hpath hown hne hbackup
  · intro next hfile hkept
    exact .inl (h.congr hfile hkept)
  intro written hfile hkept hroom hsource
  have hwritten := h.congr hfile hkept
  rcases apply_moveToBackup hwritten with ⟨error, happly⟩ | ⟨hnamed, happly⟩
  · apply Passes.cons (.inl hwritten)
    · rw [happly]
      exact .inl hwritten
    · intro hok
      rw [happly] at hok
      cases hok
  -- now nothing stands under the path until the temporary file is moved there
  have hmoved : (written.move path path.backup).BackedUp path original := by
    refine ⟨hnamed, ?_, ?_, hroom⟩
    · have htarget : path.backup ≠ [] := by simp [Path.backup]
      rw [get?_move written hpath htarget (path.backup_ne hpath).symm, hwritten.file]
    · rw [get?_move_source written hpath]
      · simp
      · exact Path.not_prefix_of_length hlengths (path.backup_ne hpath)
  have hbeside : (written.move path path.backup).get? temporary = some (.file content) := by
    rw [get?_move_of_apart, hsource]
    · exact Path.not_prefix_of_length hlength.symm hne.symm
    · exact Path.not_prefix_of_length (by omega) hbackup.symm
  apply Passes.cons (.inl hwritten)
  · rw [happly]
    exact .inr hmoved
  · intro _
    rw [happly]
    exact passes_install content hmoved hown hbeside hne hbackup

/-- A replacement without a backup, when the backup already has the original contents. -/
lemma passes_of_backedUp (h : tree.BackedUp path original) (hown : path.Own temporary)
    (hne : temporary ≠ path) (hbackup : temporary ≠ path.backup) :
    Passes (Kept path original) (Replaced path original content) tree
      (steps ⟨path, content, none⟩ temporary) := by
  apply passes_prepared content h.ne_nil hown hne hbackup
  · intro next hfile hkept
    exact .inr (h.congr hfile hkept)
  · intro written hfile hkept _ hsource
    exact passes_install content (h.congr hfile hkept) hown hsource hne hbackup

/-- What is removed after a failure is the temporary file, so the original stays. -/
lemma run_of_passes {replacement : Replacement} (hpath : path ≠ [])
    (hscratch : replacement.scratch tree = Replacement.temporary tree path)
    (h : Passes (Kept path original) (Replaced path original content) tree
      (replacement.steps (Replacement.temporary tree path))) :
    Kept path original (replacement.run tree).1 ∧
      ((replacement.run tree).2 = .ok () →
        Replaced path original content (replacement.run tree).1) := by
  have hwhole := h.whole
  have hlast := h.last
  rw [run, hscratch]
  rcases hruns : runSteps tree (replacement.steps (Replacement.temporary tree path)) with
    ⟨after, error | _⟩ <;> rw [hruns] at hwhole hlast
  · refine ⟨hwhole.erase (temporary_ne tree hpath).symm (path.temporary_ne_backup tree).symm, ?_⟩
    intro hok
    cases hok
  · exact ⟨hwhole, hlast⟩

end Replacement

end Keyfile
