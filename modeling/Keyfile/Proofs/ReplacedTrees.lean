import Keyfile.Proofs.FileOperations

/-!
# Trees after a replacement

A replacement that fails leaves every file with its bytes and no temporary file, whichever of its
steps stopped. One that ends well gives the file its new contents, keeps the previous ones in the
backup when one is wanted, and leaves all other files alone. For this nothing but a directory may
have something below it among the places that the replacement uses.
-/

namespace Keyfile

namespace Replacement

/-- The places that a replacement uses: its own path, that of its backup, and those of temporary
files. -/
inductive Uses (replacement : Replacement) : Path → Prop
  | target : Uses replacement replacement.path
  | backup {backup : Path} (h : replacement.backup? = some backup) : Uses replacement backup
  | temporary (length : Nat) : Uses replacement
      (replacement.path.parent ++ [replacement.path.name ++ '.' :: List.replicate length '_'])

/-- Only directories among the places of a replacement have something below them. -/
def Settled (replacement : Replacement) (tree : FileTree) : Prop :=
  ∀ own, replacement.Uses own → tree.get? own ≠ some .directory → tree.Bare own

/-- The replacement keeps what is there as a backup at a place. -/
def BacksUp (replacement : Replacement) (tree : FileTree) (place : Path) : Prop :=
  replacement.keepsBackup ∧ tree.contains replacement.path ∧ replacement.backup? = some place

/-- What a replacement leaves when it ends well: the new contents, the previous ones in the backup,
and of some places all others as they were. -/
structure Done (replacement : Replacement) (places : Path → Prop) (before after : FileTree) :
    Prop where
  content : after.get? replacement.path = some (.file replacement.content)
  backup : replacement.keepsBackup → ∀ previous,
    before.get? replacement.path = some (.file previous) →
      ∃ backup, replacement.backup? = some backup ∧ after.get? backup = some (.file previous)
  others : ∀ place, places place → place ≠ replacement.path → ¬replacement.BacksUp before place →
    before.SameFile after place

/-- What a replacement leaves, as it ends: all is done, or the files are the same. -/
def Leaves {ε α : Type} (replacement : Replacement) (places : Path → Prop)
    (before after : FileTree) : Except ε α → Prop
  | .ok _ => replacement.Done places before after
  | .error _ => ∀ place, places place → before.SameFile after place

variable {replacement : Replacement} {tree next : FileTree} {own backup : Path}

lemma Uses.length_eq (hpath : replacement.path ≠ []) (h : replacement.Uses own) :
    own.length = replacement.path.length := by
  have hbeside : ∀ name, (replacement.path.parent ++ [name]).length = replacement.path.length := by
    intro name
    have hpos := List.length_pos_iff.2 hpath
    rw [Path.parent, List.length_append, List.length_dropLast, List.length_singleton]
    omega
  cases h with
  | target => rfl
  | temporary length => exact hbeside _
  | backup h =>
    unfold backup? Path.withEnding? at h
    split at h
    · split at h
      · cases h
      · split at h
        · rename_i name rest _
          split at h
          · cases h
          · cases h
            exact hbeside name
        · cases h
    · cases h

/-- The temporary file has a name of its own beside the file: nothing in the tree has a longer one,
and it is not that of the backup. -/
lemma exists_scratch (replacement : Replacement) (tree : FileTree) :
    ∃ length, replacement.scratch tree = replacement.path.parent ++
        [replacement.path.name ++ '.' :: List.replicate length '_'] ∧
      (∀ node ∈ tree.nodes, node.1.name.length ≤ length) ∧
      replacement.backup? ≠ some (replacement.scratch tree) := by
  set lengths := tree.nodes.map fun node => node.1.name.length with hlengths
  set longest := lengths.foldl max replacement.path.name.length with hlongest
  have htemporary : temporary tree replacement.path = replacement.path.parent ++
      [replacement.path.name ++ '.' :: List.replicate longest '_'] := rfl
  have hnodes : ∀ node ∈ tree.nodes, node.1.name.length ≤ longest := by
    intro node hnode
    have hmem : node.1.name.length ∈ lengths := List.mem_map_of_mem hnode
    have hmax := List.foldl_max_eq_max (a := replacement.path.name.length)
      (List.ne_nil_of_mem hmem)
    have hle := List.le_max_of_mem hmem
    omega
  by_cases htaken : replacement.backup? = some (temporary tree replacement.path)
  · have hscratch : replacement.scratch tree = replacement.path.parent ++
        [replacement.path.name ++ '.' :: List.replicate (longest + 1) '_'] := by
      rw [scratch]
      simp only [htaken, if_true]
      rw [htemporary, Path.parent_append_singleton, Path.name_append_singleton,
        List.replicate_succ', List.append_assoc, List.cons_append]
    refine ⟨longest + 1, hscratch, fun node hnode => (hnodes node hnode).trans (Nat.le_succ _), ?_⟩
    rw [htaken, hscratch, htemporary]
    simp
  · have hscratch : replacement.scratch tree = temporary tree replacement.path := if_neg htaken
    exact ⟨longest, hscratch.trans htemporary, hnodes, hscratch ▸ htaken⟩

lemma uses_scratch (replacement : Replacement) (tree : FileTree) :
    replacement.Uses (replacement.scratch tree) := by
  obtain ⟨length, hscratch, -, -⟩ := replacement.exists_scratch tree
  rw [hscratch]
  exact .temporary length

lemma scratch_ne_nil (replacement : Replacement) (tree : FileTree) :
    replacement.scratch tree ≠ [] := by
  obtain ⟨length, hscratch, -, -⟩ := replacement.exists_scratch tree
  simp [hscratch]

lemma get?_scratch (replacement : Replacement) (tree : FileTree) :
    tree.get? (replacement.scratch tree) = none := by
  obtain ⟨length, hscratch, hlength, -⟩ := replacement.exists_scratch tree
  rw [FileTree.get?, if_neg (replacement.scratch_ne_nil tree), List.lookup_eq_none_iff]
  intro node hnode
  rw [bne_iff_ne]
  intro heq
  have hname := congrArg (fun place : Path => place.name.length) heq
  have hle := hlength node hnode
  rw [hscratch, Path.name_append_singleton, List.length_append, List.length_cons,
    List.length_replicate] at hname
  omega

lemma scratch_ne_path (hpath : replacement.path ≠ []) :
    replacement.scratch tree ≠ replacement.path := by
  obtain ⟨length, hscratch, -, -⟩ := replacement.exists_scratch tree
  obtain ⟨parent, name, hname⟩ := Path.exists_parent_name hpath
  rw [hscratch, hname, Path.parent_append_singleton, Path.name_append_singleton]
  simp

lemma scratch_ne_backup (tree : FileTree) (h : replacement.backup? = some backup) :
    replacement.scratch tree ≠ backup := by
  rintro rfl
  obtain ⟨_, -, -, htaken⟩ := replacement.exists_scratch tree
  exact htaken h

/-- The tree in which the temporary file was written. -/
def written (replacement : Replacement) (tree : FileTree) : FileTree :=
  (tree.makeDirectories replacement.path.parent).1.put (replacement.scratch tree)
    (.file replacement.content)

/-- The first two steps fail before the temporary file is there, or only add directories and it. -/
lemma runSteps_prepared (replacement : Replacement) (tree : FileTree) :
    (∃ error, runSteps tree (replacement.steps (replacement.scratch tree)) =
        ((tree.makeDirectories replacement.path.parent).1, .error error)) ∨
      leavesNoRoom replacement.path = false ∧
        runSteps tree (replacement.steps (replacement.scratch tree)) =
          runSteps (replacement.written tree)
            ((if replacement.keepsBackup then
              [.moveToBackup replacement.path (replacement.backupEnding.getD [])] else []) ++
                [.install (replacement.scratch tree) replacement.path]) := by
  have hsteps : ∀ temporary, replacement.steps temporary = .makeParent replacement.path ::
      .writeTemporary temporary replacement.content :: ((if replacement.keepsBackup then
        [.moveToBackup replacement.path (replacement.backupEnding.getD [])] else []) ++
          [.install temporary replacement.path]) := fun _ => rfl
  obtain ⟨hmade, hroom⟩ := ReplacementStep.apply_makeParent tree replacement.path
  rw [hsteps, runSteps]
  rcases happly : ReplacementStep.apply tree (.makeParent replacement.path) with
    ⟨made, error | _⟩ <;> rw [happly] at hmade hroom <;> obtain rfl : made = _ := hmade
  · exact .inl ⟨error, rfl⟩
  · exact .inr ⟨hroom rfl, rfl⟩

/-- What the steps of a replacement leave it leaves itself: when they stop, the temporary file is
removed. -/
lemma leaves_run {result : Except FileError Unit}
    (hsteps : runSteps tree (replacement.steps (replacement.scratch tree)) = (next, result))
    (hfailed : ∀ error, result = .error error → ∀ place, place ≠ replacement.scratch tree →
      tree.SameFile next place)
    (hdone : result = .ok () → replacement.Done (fun _ => True) tree next) :
    replacement.Leaves (fun _ => True) tree (replacement.run tree).1 (replacement.run tree).2 := by
  rw [run, hsteps]
  cases result with
  | ok _ => exact hdone rfl
  | error error =>
    intro place _
    by_cases hplace : place = replacement.scratch tree
    · rw [hplace]
      exact .of_none (get?_scratch _ _) (FileTree.get?_erase _ (scratch_ne_nil _ _))
    · refine (hfailed error rfl place hplace).trans (.of_eq ?_)
      exact FileTree.get?_erase_of_ne next hplace

lemma get?_written_scratch (replacement : Replacement) (tree : FileTree) :
    (replacement.written tree).get? (replacement.scratch tree) =
      some (.file replacement.content) :=
  FileTree.get?_put _ (replacement.scratch_ne_nil tree) _

lemma sameFile_written (replacement : Replacement) {place : Path}
    (hplace : place ≠ replacement.scratch tree) :
    tree.SameFile (replacement.written tree) place :=
  (tree.sameFile_makeDirectories replacement.path.parent place).trans
    (.of_eq (FileTree.get?_put_of_ne _ hplace _))

lemma get?_written (hpath : replacement.path ≠ []) (hown : replacement.Uses own) {below : Path}
    (hne : own ++ below ≠ replacement.scratch tree) :
    (replacement.written tree).get? (own ++ below) = tree.get? (own ++ below) := by
  rw [written, FileTree.get?_put_of_ne _ hne]
  apply FileTree.get?_makeDirectories
  have hpos := List.length_pos_iff.2 hpath
  rw [List.length_append, hown.length_eq hpath, Path.parent, List.length_dropLast]
  omega

lemma get?_written_own (hpath : replacement.path ≠ []) (hown : replacement.Uses own)
    (hne : own ≠ replacement.scratch tree) :
    (replacement.written tree).get? own = tree.get? own := by
  rw [← List.append_nil own] at hne ⊢
  exact get?_written hpath hown hne

lemma bare_written (hpath : replacement.path ≠ []) (hsettled : replacement.Settled tree)
    (hown : replacement.Uses own) (hfree : tree.get? own ≠ some .directory) :
    (replacement.written tree).Bare own := by
  apply (hsettled own hown hfree).congr
  intro below hbelow
  apply get?_written hpath hown
  intro heq
  have hlengths := congrArg List.length heq
  have hscratch := (replacement.uses_scratch tree).length_eq hpath
  have hpos := List.length_pos_iff.2 hbelow
  rw [List.length_append, hown.length_eq hpath] at hlengths
  omega

/-- A tree in which only the last step of a replacement is missing: the temporary file stands alone,
the previous file is in the backup if one is kept, and the other files are as they were. -/
structure Staged (replacement : Replacement) (before staged : FileTree) : Prop where
  path : replacement.path ≠ []
  temporary : staged.get? (replacement.scratch before) = some (.file replacement.content)
  bare : staged.Bare (replacement.scratch before)
  backup : replacement.keepsBackup → ∀ previous,
    before.get? replacement.path = some (.file previous) →
      ∃ backup, replacement.backup? = some backup ∧ backup ≠ replacement.path ∧
        staged.get? backup = some (.file previous)
  others : ∀ place, place ≠ replacement.scratch before → place ≠ replacement.path →
    ¬replacement.BacksUp before place → before.SameFile staged place

lemma Staged.done {staged : FileTree} (h : replacement.Staged tree staged) :
    replacement.Done (fun _ => True) tree
      (staged.move (replacement.scratch tree) replacement.path) := by
  have hscratch := replacement.scratch_ne_nil tree
  have hne : replacement.scratch tree ≠ replacement.path := scratch_ne_path h.path
  have hlength := (replacement.uses_scratch tree).length_eq h.path
  constructor
  · rw [FileTree.get?_move staged hscratch h.path hne, h.temporary]
  · intro hkeeps previous hprevious
    obtain ⟨backup, hnamed, hother, hmoved⟩ := h.backup hkeeps previous hprevious
    have hfree := (scratch_ne_backup tree hnamed).symm
    exact ⟨backup, hnamed, (FileTree.get?_move_of_bare h.bare hfree hother).trans hmoved⟩
  · intro place _ hplace hunused
    by_cases htemporary : place = replacement.scratch tree
    · rw [htemporary]
      apply FileTree.SameFile.of_none (get?_scratch _ _)
      apply FileTree.get?_move_source _ hscratch
      exact Path.not_prefix_of_length hlength.symm hne.symm
    · refine (h.others place htemporary hplace hunused).trans (.of_eq ?_)
      exact FileTree.get?_move_of_bare h.bare htemporary hplace

lemma bare_written_scratch (hpath : replacement.path ≠ []) (hsettled : replacement.Settled tree) :
    (replacement.written tree).Bare (replacement.scratch tree) := by
  apply bare_written hpath hsettled (replacement.uses_scratch tree)
  simp [replacement.get?_scratch tree]

/-- Without a previous file to keep, the temporary file is all that has to be there. -/
lemma staged_written (hpath : replacement.path ≠ []) (hsettled : replacement.Settled tree)
    (hnone : ¬(replacement.keepsBackup ∧ tree.contains replacement.path)) :
    replacement.Staged tree (replacement.written tree) where
  path := hpath
  temporary := replacement.get?_written_scratch tree
  bare := bare_written_scratch hpath hsettled
  backup hkeeps _ hprevious := absurd ⟨hkeeps, FileTree.contains_of_get? hprevious⟩ hnone
  others _ htemporary _ _ := replacement.sameFile_written htemporary

section Backed

variable {previous : Bytes} (hpath : replacement.path ≠ []) (hsettled : replacement.Settled tree)
  (hprevious : tree.get? replacement.path = some (.file previous))
  (hnamed : replacement.backup? = some backup) (hbackup : backup ≠ replacement.path)

include hpath hsettled hprevious

/-- The move to the backup touches the file and the backup only, for nothing is below a file. -/
lemma get?_backed {place : Path} (hplace : place ≠ replacement.path) (hother : place ≠ backup) :
    ((replacement.written tree).move replacement.path backup).get? place =
      (replacement.written tree).get? place := by
  have hbare : (replacement.written tree).Bare replacement.path := by
    apply bare_written hpath hsettled .target
    simp [hprevious]
  exact FileTree.get?_move_of_bare hbare hplace hother

include hnamed hbackup

lemma staged_backed (hkeeps : replacement.keepsBackup) :
    replacement.Staged tree ((replacement.written tree).move replacement.path backup) := by
  have hne : replacement.scratch tree ≠ replacement.path := scratch_ne_path hpath
  have hfree := scratch_ne_backup tree hnamed
  have hscratch := (replacement.uses_scratch tree).length_eq hpath
  have hlength := (Uses.backup hnamed).length_eq hpath
  refine ⟨hpath, ?_, ?_, ?_, ?_⟩
  · rw [get?_backed hpath hsettled hprevious hne hfree, replacement.get?_written_scratch]
  · apply (bare_written_scratch hpath hsettled).congr
    intro below hbelow
    -- what is below the temporary file is longer than the two places of the move
    have hlonger : ∀ other : Path, other.length = replacement.path.length →
        replacement.scratch tree ++ below ≠ other := by
      rintro _ hother rfl
      have hpos := List.length_pos_iff.2 hbelow
      rw [List.length_append, hscratch] at hother
      omega
    exact get?_backed hpath hsettled hprevious (hlonger _ rfl) (hlonger _ hlength)
  · intro _ found hfound
    obtain rfl : previous = found := by simpa [hprevious] using hfound
    have hroot : backup ≠ [] := by
      rintro rfl
      exact hpath (List.length_eq_zero_iff.1 hlength.symm)
    refine ⟨backup, hnamed, hbackup, ?_⟩
    rw [FileTree.get?_move _ hpath hroot hbackup.symm, get?_written_own hpath .target hne.symm,
      hprevious]
  · intro place htemporary hplace hunused
    have hother : place ≠ backup := by
      rintro rfl
      exact hunused ⟨hkeeps, FileTree.contains_of_get? hprevious, hnamed⟩
    exact (replacement.sameFile_written htemporary).trans
      (.of_eq (get?_backed hpath hsettled hprevious hplace hother))

end Backed

/-- When nothing is moved to a backup, all that can still fail is the last step. -/
lemma leaves_unbacked (hsettled : replacement.Settled tree)
    (hnone : ¬(replacement.keepsBackup ∧ tree.contains replacement.path))
    (hsteps : runSteps tree (replacement.steps (replacement.scratch tree)) =
      runSteps (replacement.written tree)
        [.install (replacement.scratch tree) replacement.path]) :
    replacement.Leaves (fun _ => True) tree (replacement.run tree).1 (replacement.run tree).2 := by
  have hsource := replacement.get?_written_scratch tree
  cases hrename : (replacement.written tree).rename (replacement.scratch tree) replacement.path with
  | error error =>
    rw [runSteps, ReplacementStep.apply, hrename] at hsteps
    apply leaves_run hsteps
    · exact fun _ _ place hplace => replacement.sameFile_written hplace
    · rintro ⟨⟩
  | ok installed =>
    rw [runSteps, ReplacementStep.apply, hrename] at hsteps
    apply leaves_run hsteps
    · rintro _ ⟨⟩
    intro _
    have hpath : replacement.path ≠ [] := by
      intro hroot
      rw [FileTree.rename, hsource, hroot, FileTree.get?, if_pos rfl] at hrename
      cases hrename
    obtain ⟨rfl, -⟩ := FileTree.move_of_rename_file hsource (scratch_ne_path hpath) hrename
    exact (staged_written hpath hsettled hnone).done

/-- When the previous file has been moved to the backup nothing can fail any more. -/
lemma leaves_backed {previous : Bytes} (hsettled : replacement.Settled tree)
    (hpath : replacement.path ≠ []) (hroom : leavesNoRoom replacement.path = false)
    (hprevious : tree.get? replacement.path = some (.file previous))
    (hnamed : replacement.backup? = some backup) (hkeeps : replacement.keepsBackup)
    (hbackup : backup ≠ replacement.path)
    (hsteps : runSteps tree (replacement.steps (replacement.scratch tree)) =
      runSteps ((replacement.written tree).move replacement.path backup)
        [.install (replacement.scratch tree) replacement.path]) :
    replacement.Leaves (fun _ => True) tree (replacement.run tree).1 (replacement.run tree).2 := by
  have hstaged := staged_backed hpath hsettled hprevious hnamed hbackup hkeeps
  have hlength := (Uses.backup hnamed).length_eq hpath
  have habsent : ((replacement.written tree).move replacement.path backup).get?
      replacement.path = none :=
    FileTree.get?_move_source _ hpath (Path.not_prefix_of_length hlength hbackup)
  have hinstall := ReplacementStep.apply_install hstaged.temporary (by simp [habsent])
    (scratch_ne_path hpath) (FileTree.isTooLong_of_room hpath hroom)
  rw [runSteps, hinstall] at hsteps
  apply leaves_run hsteps
  · rintro _ ⟨⟩
  · exact fun _ => hstaged.done

lemma backupEnding_ne_nil (h : replacement.keepsBackup) :
    replacement.backupEnding.getD [] ≠ [] := by
  unfold keepsBackup at h
  split at h
  · cases h
  · cases h
  · rename_i ending hne heq
    rw [heq]
    exact hne

/-- A replacement that fails leaves every file as it was; one that ends well has done all it has to
and nothing else. A directory in the place of the file must not have to be moved to a backup. -/
theorem leaves_run_tree (hsettled : replacement.Settled tree)
    (hfree : replacement.keepsBackup → tree.get? replacement.path ≠ some .directory) :
    replacement.Leaves (fun _ => True) tree (replacement.run tree).1 (replacement.run tree).2 := by
  rcases replacement.runSteps_prepared tree with ⟨error, hsteps⟩ | ⟨hroom, hsteps⟩
  · apply leaves_run hsteps
    · exact fun _ _ place _ => tree.sameFile_makeDirectories _ place
    · rintro ⟨⟩
  by_cases hkeeps : replacement.keepsBackup
  · have hpath := FileTree.ne_nil_of_get? (hfree hkeeps)
    have hsame : (replacement.written tree).get? replacement.path = tree.get? replacement.path :=
      get?_written_own hpath .target (scratch_ne_path hpath).symm
    rw [if_pos hkeeps, List.singleton_append] at hsteps
    cases hthere : tree.get? replacement.path with
    | none =>
      -- there is nothing to keep, so the step to the backup does nothing
      have habsent : (replacement.written tree).contains replacement.path = false := by
        rw [FileTree.contains, hsame, hthere]
        rfl
      have hnothing : ReplacementStep.apply (replacement.written tree)
          (.moveToBackup replacement.path (replacement.backupEnding.getD [])) =
            (replacement.written tree, .ok ()) := by
        rw [ReplacementStep.apply, moveToEnding, habsent]
        rfl
      rw [runSteps, hnothing] at hsteps
      refine leaves_unbacked hsettled (fun h => ?_) hsteps
      rw [FileTree.contains, hthere] at h
      cases h.2
    | some node =>
      cases node with
      | directory => exact absurd hthere (hfree hkeeps)
      | file previous =>
        rcases ReplacementStep.moveToBackup_cases (hsame.trans hthere)
          (backupEnding_ne_nil hkeeps) with ⟨error, hmove⟩ | ⟨backup, hnamed, hbackup, hmove⟩
        · rw [runSteps, hmove] at hsteps
          apply leaves_run hsteps
          · exact fun _ _ place hplace => replacement.sameFile_written hplace
          · rintro ⟨⟩
        · rw [runSteps, hmove] at hsteps
          have hnamed : replacement.backup? = some backup := by
            rw [backup?, if_pos hkeeps, hnamed]
            rfl
          exact leaves_backed hsettled hpath hroom hthere hnamed hkeeps hbackup hsteps
  · rw [if_neg hkeeps, List.nil_append] at hsteps
    exact leaves_unbacked hsettled (fun h => hkeeps h.1) hsteps

end Replacement

end Keyfile
