import Keyfile.Proofs.Backups

/-!
# Files after single operations

The operations on a tree change what stands in few places: directories are made where nothing was,
and a file that is moved, with nothing below it, changes two places. Each lemma says what an
operation leaves everywhere else.
-/

namespace Keyfile

lemma Text.splitAt_eq_singleton {mark : Char} {t part : Text} (h : Text.splitAt mark t = [part]) :
    part = t := by
  induction t generalizing part with
  | nil =>
    cases h
    rfl
  | cons c t ih =>
    have hparts : ∃ first rest, Text.splitAt mark t = first :: rest := by
      cases t with
      | nil => exact ⟨[], [], rfl⟩
      | cons d t =>
        rw [Text.splitAt]
        split
        · exact ⟨_, _, rfl⟩
        · split <;> exact ⟨_, _, rfl⟩
    obtain ⟨first, rest, hrest⟩ := hparts
    rw [Text.splitAt, hrest] at h
    split at h
    · cases h
    · cases h
      rw [ih hrest]

/-- A neighbour that is no directory has the whole ending in its name. -/
lemma Path.eq_of_withEnding? {path backup : Path} {ending : Text}
    (h : path.withEnding? ending = some ⟨backup, false⟩) :
    backup = path.parent ++ [path.name ++ ending] := by
  unfold withEnding? at h
  split at h
  · cases h
  · split at h
    · rename_i name rest hsplit
      split at h
      · cases h
      · simp only [Option.some.injEq, Neighbour.mk.injEq, Bool.not_eq_false',
          List.isEmpty_iff] at h
        obtain ⟨rfl, rfl⟩ := h
        rw [Text.splitAt_eq_singleton hsplit]
    · cases h

namespace FileTree

variable {tree before middle after : FileTree} {path place source target : Path}

/-- A place holds the same file in two trees, or a file in neither. -/
def SameFile (before after : FileTree) (place : Path) : Prop :=
  ∀ content, after.get? place = some (.file content) ↔ before.get? place = some (.file content)

lemma SameFile.of_eq (h : after.get? place = before.get? place) : before.SameFile after place :=
  fun _ => by rw [h]

lemma SameFile.of_none (hbefore : before.get? place = none) (hafter : after.get? place = none) :
    before.SameFile after place :=
  .of_eq (hafter.trans hbefore.symm)

lemma SameFile.trans (h : before.SameFile middle place) (h' : middle.SameFile after place) :
    before.SameFile after place :=
  fun content => (h' content).trans (h content)

lemma get?_makeDirectories_of_some {node : Node} (h : tree.get? place = some node) (path : Path) :
    (tree.makeDirectories path).1.get? place = some node := by
  obtain ⟨made, hnodes, -⟩ := exists_made tree path
  rw [get?] at h ⊢
  split
  · rwa [if_pos ‹_›] at h
  · rw [if_neg ‹_›] at h
    rw [hnodes, List.lookup_append, h, Option.some_or]

/-- Directories are all that is made on the way to one. -/
lemma sameFile_makeDirectories (tree : FileTree) (path place : Path) :
    tree.SameFile (tree.makeDirectories path).1 place := by
  cases hthere : tree.get? place with
  | some node => exact .of_eq ((get?_makeDirectories_of_some hthere path).trans hthere.symm)
  | none =>
    obtain ⟨made, hnodes, -⟩ := exists_made tree path
    have hplace : place ≠ [] := by
      have hfree : tree.get? place ≠ some .directory := by simp [hthere]
      exact ne_nil_of_get? hfree
    rw [get?, if_neg hplace] at hthere
    have hmade : ∀ content, (made.map (·, Node.directory)).lookup place ≠ some (.file content) := by
      intro content hfile
      obtain ⟨before, after, hsplit, -⟩ := List.lookup_eq_some_iff.1 hfile
      have hmem : (place, Node.file content) ∈ made.map (·, Node.directory) := by
        rw [hsplit]
        exact List.mem_append_right _ List.mem_cons_self
      obtain ⟨other, -, heq⟩ := List.mem_map.1 hmem
      cases heq
    intro content
    rw [get?, get?, if_neg hplace, if_neg hplace, hnodes, List.lookup_append, hthere]
    simp [hmade content]

lemma get?_erase (tree : FileTree) (hpath : path ≠ []) : (tree.erase path).get? path = none := by
  rw [get?, if_neg hpath, erase, List.lookup_eq_none_iff]
  intro node hnode
  have hkept := (List.mem_filter.1 hnode).2
  rw [bne_iff_ne] at hkept ⊢
  exact hkept.symm

lemma contains_of_get? {node : Node} (h : tree.get? place = some node) :
    tree.contains place = true := by
  rw [contains, h]
  rfl

lemma contains_of_mem {node : Path × Node} (h : node ∈ tree.nodes) : tree.contains node.1 := by
  rw [contains, get?]
  split
  · rfl
  · rw [Option.isSome_iff_ne_none]
    intro hnone
    simpa using List.lookup_eq_none_iff.1 hnone node h

/-- It is enough that what the tree lists stands in directories. -/
lemma sound_of_ancestors (h : ∀ node ∈ tree.nodes, ∀ above ∈ Path.ancestors node.1,
    tree.get? above = some .directory) : tree.Sound := by
  intro here below hbelow hthere
  have hne : here ++ below ≠ [] := by simp [hbelow]
  obtain ⟨node, hnode⟩ := Option.isSome_iff_exists.1 hthere
  rw [get?, if_neg hne] at hnode
  obtain ⟨before, after, hnodes, -⟩ := List.lookup_eq_some_iff.1 hnode
  have hmem : (here ++ below, node) ∈ tree.nodes := by
    rw [hnodes]
    exact List.mem_append_right _ List.mem_cons_self
  apply h _ hmem
  apply mem_ancestors (List.prefix_append here below)
  simpa using hbelow.symm

/-- Nothing stands below a path. -/
def Bare (tree : FileTree) (path : Path) : Prop :=
  ∀ below, below ≠ [] → tree.contains (path ++ below) = false

lemma Bare.congr (h : before.Bare path)
    (hsame : ∀ below, below ≠ [] → after.get? (path ++ below) = before.get? (path ++ below)) :
    after.Bare path := by
  intro below hbelow
  rw [contains, hsame below hbelow]
  exact h below hbelow

/-- The move of something with nothing below it changes two places only. -/
lemma get?_move_of_bare (h : tree.Bare source) (hsource : place ≠ source)
    (htarget : place ≠ target) : (tree.move source target).get? place = tree.get? place := by
  have halone : ∀ node ∈ tree.nodes, source <+: node.1 → node.1 = source := by
    rintro ⟨name, node⟩ hnode ⟨below, rfl⟩
    have hthere := contains_of_mem hnode
    by_contra hne
    have hbelow : below ≠ [] := by
      rintro rfl
      exact hne (List.append_nil source)
    rw [h below hbelow] at hthere
    cases hthere
  -- so all that is renamed is the source itself, and it becomes the target
  have hlookup : ∀ nodes : List (Path × Node),
      (∀ node ∈ nodes, source <+: node.1 → node.1 = source) →
      (nodes.map fun node =>
        if source.isPrefixOf node.1 then (target ++ node.1.drop source.length, node.2)
        else node).lookup place = nodes.lookup place := by
    intro nodes hnodes
    induction nodes with
    | nil => rfl
    | cons first rest ih =>
      obtain ⟨name, node⟩ := first
      obtain ⟨hfirst, hrest⟩ := List.forall_mem_cons.1 hnodes
      rw [List.map_cons, List.lookup_cons]
      by_cases hprefix : source.isPrefixOf name
      · obtain rfl : name = source := hfirst (List.isPrefixOf_iff_prefix.1 hprefix)
        have hmoved : (place == target) = false := by simpa using htarget
        have hname : (place == name) = false := by simpa using hsource
        rw [if_pos hprefix, List.drop_length, List.append_nil, List.lookup_cons, hmoved, hname]
        exact ih hrest
      · rw [if_neg hprefix, List.lookup_cons, ih hrest]
  have hkept : ∀ node ∈ (tree.erase target).nodes, source <+: node.1 → node.1 = source :=
    fun node hnode => halone node (List.mem_filter.1 hnode).1
  rw [← get?_erase_of_ne tree htarget, get?, get?, move, hlookup _ hkept]

/-- A file that takes the place of something else is moved there, and that is no directory. -/
lemma move_of_rename_file {content : Bytes} (hsource : tree.get? source = some (.file content))
    (hne : source ≠ target) (h : tree.rename source target = .ok after) :
    after = tree.move source target ∧ tree.get? target ≠ some .directory := by
  have hfree : tree.get? target ≠ some .directory := by
    intro hdirectory
    rw [rename, hsource, hdirectory] at h
    cases h
  rw [rename_file_eq hsource hfree hne] at h
  split at h
  · cases h
  · cases h
    exact ⟨rfl, hfree⟩

end FileTree

/-- To move a file to its backup either fails and changes nothing, or moves it to the name with the
whole ending, where no directory stands. -/
lemma ReplacementStep.moveToBackup_cases {tree : FileTree} {path : Path} {previous : Bytes}
    {ending : Text} (hfile : tree.get? path = some (.file previous)) (hending : ending ≠ []) :
    (∃ error, (moveToBackup path ending).apply tree = (tree, .error error)) ∨
      ∃ backup, path.withEnding? ending = some ⟨backup, false⟩ ∧ backup ≠ path ∧
        (moveToBackup path ending).apply tree = (tree.move path backup, .ok ()) := by
  have hpath : path ≠ [] := by
    rintro rfl
    simp [FileTree.get?] at hfile
  rw [apply, moveToEnding, if_pos (FileTree.contains_of_get? hfile)]
  rcases hnamed : path.withEnding? ending with _ | ⟨backup, _ | _⟩
  · exact .inl ⟨_, rfl⟩
  · have hne : path ≠ backup := by
      obtain ⟨parent, name, rfl⟩ := Path.exists_parent_name hpath
      rw [Path.eq_of_withEnding? hnamed, Path.parent_append_singleton, Path.name_append_singleton]
      simpa using hending.symm
    simp only [Bool.false_eq_true, if_false]
    split
    · exact .inl ⟨_, rfl⟩
    · cases hrename : tree.rename path backup with
      | error error => exact .inl ⟨error, rfl⟩
      | ok moved =>
        obtain ⟨rfl, -⟩ := FileTree.move_of_rename_file hfile hne hrename
        exact .inr ⟨backup, rfl, hne.symm, rfl⟩
  · simp only [if_true]
    split
    · exact .inl ⟨_, rfl⟩
    · exact .inl ⟨_, rfl⟩

end Keyfile
