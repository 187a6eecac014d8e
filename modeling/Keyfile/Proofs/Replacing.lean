import Keyfile.File.Replacement
import Keyfile.Proofs.LineBreaks

/-!
# Replaced files

Where the directories above a file can be made and no directory stands under its own path, a
replacement without a backup ends without an error, and the file has the new contents.
-/

namespace Keyfile

namespace FileTree

variable {tree : FileTree} {path source target : Path}

/-- Everything in a tree stands in a directory. -/
def Sound (tree : FileTree) : Prop :=
  ∀ here below : Path, below ≠ [] → tree.contains (here ++ below) →
    tree.get? here = some .directory

lemma ne_nil_of_get? (h : tree.get? path ≠ some .directory) : path ≠ [] := by
  rintro rfl
  exact h rfl

lemma lookup_place (path : Path) (node : Node) (nodes : List (Path × Node)) :
    (place (·.1 == path) (path, node) nodes).lookup path = some node := by
  induction nodes with
  | nil => simp [place]
  | cons other rest ih =>
    obtain ⟨name, found⟩ := other
    rw [place]
    by_cases h : name = path
    · simp [h]
    · have hne : (path == name) = false := by simpa using fun heq => h heq.symm
      simp [h, List.lookup_cons, hne, ih]

/-- A node that was put under a path stands there. -/
lemma get?_put (tree : FileTree) (hpath : path ≠ []) (node : Node) :
    (tree.put path node).get? path = some node := by
  rw [get?, if_neg hpath, put, lookup_place]

/-- What was put under a path changes nothing under the others. -/
lemma get?_put_of_ne (tree : FileTree) {other : Path} (hne : other ≠ path) (node : Node) :
    (tree.put path node).get? other = tree.get? other := by
  have hlookup : ∀ nodes : List (Path × Node),
      (place (·.1 == path) (path, node) nodes).lookup other = nodes.lookup other := by
    intro nodes
    have hother : (other == path) = false := by simpa using hne
    induction nodes with
    | nil => simp [place, List.lookup_cons, hother]
    | cons first rest ih =>
      obtain ⟨name, found⟩ := first
      rw [place]
      by_cases h : name = path
      · simp [h, List.lookup_cons, hother]
      · simp [h, List.lookup_cons, ih]
  rw [get?, get?, put, hlookup]

lemma lookup_moved (hne : source ≠ target) (nodes : List (Path × Node)) :
    ((nodes.filter (·.1 != target)).map fun node =>
      if source.isPrefixOf node.1 then (target ++ node.1.drop source.length, node.2)
      else node).lookup target = nodes.lookup source := by
  induction nodes with
  | nil => rfl
  | cons node rest ih =>
    obtain ⟨place, node⟩ := node
    by_cases hplace : place = target
    · have hsource : (source == place) = false := by simpa [hplace] using hne
      simp only [List.filter_cons, hplace, bne_self_eq_false, Bool.false_eq_true, if_false, ih]
      rw [List.lookup_cons, ← hplace, hsource]
    · have hkept : (place != target) = true := by simpa using hplace
      simp only [List.filter_cons, hkept, if_true, List.map_cons]
      by_cases hprefix : source.isPrefixOf place
      · obtain ⟨below, rfl⟩ := List.isPrefixOf_iff_prefix.1 hprefix
        cases below with
        | nil => simp
        | cons name below =>
          have hmoved : (target == target ++ name :: below) = false := by simp
          have hbelow : (source == source ++ name :: below) = false := by simp
          rw [if_pos hprefix, List.lookup_cons, List.drop_left, hmoved, List.lookup_cons, hbelow]
          exact ih
      · have htarget : (target == place) = false := by simpa using fun heq => hplace heq.symm
        have hsource : (source == place) = false := by
          rw [beq_eq_false_iff_ne]
          rintro rfl
          exact hprefix (List.isPrefixOf_iff_prefix.2 List.prefix_rfl)
        rw [if_neg hprefix, List.lookup_cons, htarget, List.lookup_cons, hsource]
        exact ih

/-- What stood under the source of a move stands under its target. -/
lemma get?_move (tree : FileTree) (hsource : source ≠ []) (htarget : target ≠ [])
    (hne : source ≠ target) : (tree.move source target).get? target = tree.get? source := by
  rw [get?, get?, if_neg hsource, if_neg htarget, move, erase, lookup_moved hne]

lemma get?_erase_of_ne (tree : FileTree) (hne : path ≠ target) :
    (tree.erase target).get? path = tree.get? path := by
  have hlookup : ∀ nodes : List (Path × Node),
      (nodes.filter (·.1 != target)).lookup path = nodes.lookup path := by
    intro nodes
    induction nodes with
    | nil => rfl
    | cons first rest ih =>
      obtain ⟨name, node⟩ := first
      rw [List.filter_cons]
      by_cases h : name = target
      · have hdropped : (name != target) = false := by simpa using h
        have hother : (path == name) = false := by simpa [h] using hne
        rw [if_neg (by simp [hdropped]), ih, List.lookup_cons, hother]
      · have hkept : (name != target) = true := by simpa using h
        rw [if_pos hkept, List.lookup_cons, List.lookup_cons, ih]
  rw [get?, get?, erase, hlookup]

/-- A move changes nothing under a path that lies neither at nor below its source or target. -/
lemma get?_move_of_apart (tree : FileTree) (hsource : ¬source <+: path)
    (htarget : ¬target <+: path) : (tree.move source target).get? path = tree.get? path := by
  have hlookup : ∀ nodes : List (Path × Node),
      (nodes.map fun node =>
        if source.isPrefixOf node.1 then (target ++ node.1.drop source.length, node.2)
        else node).lookup path = nodes.lookup path := by
    intro nodes
    induction nodes with
    | nil => rfl
    | cons first rest ih =>
      obtain ⟨name, node⟩ := first
      rw [List.map_cons]
      by_cases h : source.isPrefixOf name
      · have hname : (path == name) = false := by
          rw [beq_eq_false_iff_ne]
          rintro rfl
          exact hsource (List.isPrefixOf_iff_prefix.1 h)
        have hmoved : (path == target ++ name.drop source.length) = false := by
          rw [beq_eq_false_iff_ne]
          rintro rfl
          exact htarget (List.prefix_append _ _)
        rw [if_pos h, List.lookup_cons, List.lookup_cons, hname, hmoved, ih]
      · rw [if_neg h, List.lookup_cons, List.lookup_cons, ih]
  have hne : path ≠ target := by
    rintro rfl
    exact htarget List.prefix_rfl
  rw [← get?_erase_of_ne tree hne, get?, get?, move, hlookup]

/-- A file can be moved to where no directory stands. -/
lemma rename_file {content : Bytes} (hsource : tree.get? source = some (.file content))
    (htarget : tree.get? target ≠ some .directory) (hne : source ≠ target)
    (hroom : isTooLong target = false) : tree.rename source target = .ok (tree.move source target) := by
  rw [rename, hsource]
  split
  · rename_i h
    cases h
  · rename_i h
    exact absurd h htarget
  · rename_i h _
    cases h
  · rename_i h _
    cases h
  · simp [hne, hroom]

lemma exists_made (tree : FileTree) (path : Path) :
    ∃ made : List Path, (tree.makeDirectories path).1.nodes =
        tree.nodes ++ made.map (·, .directory) ∧ ∀ place ∈ made, place <+: path := by
  have hnone : ∃ made : List Path, tree.nodes = tree.nodes ++ made.map (·, .directory) ∧
      ∀ place ∈ made, place <+: path := ⟨[], by simp, by simp⟩
  unfold makeDirectories
  split
  · exact hnone
  · exact hnone
  · split
    · exact hnone
    · split
      · exact hnone
      · dsimp only
        split
        · exact hnone
        · split
          · exact hnone
          · refine ⟨_, rfl, ?_⟩
            intro place hplace
            have hplace := (List.dropWhile_sublist _).mem ((List.takeWhile_sublist _).mem hplace)
            rcases List.mem_append.1 hplace with hplace | hplace
            · obtain ⟨n, -, rfl⟩ := List.mem_map.1 hplace
              exact List.take_prefix n path
            · exact List.mem_singleton.1 hplace ▸ List.prefix_rfl

/-- Directories are made on the way to a path only. -/
lemma get?_makeDirectories_of_apart (tree : FileTree) {path place : Path}
    (hapart : ¬place <+: path) :
    (tree.makeDirectories path).1.get? place = tree.get? place := by
  obtain ⟨made, hnodes, hmade⟩ := exists_made tree path
  have hlookup : (made.map (·, Node.directory)).lookup place = none := by
    rw [List.lookup_eq_none_iff]
    intro node hnode
    obtain ⟨other, hother, rfl⟩ := List.mem_map.1 hnode
    rw [bne_iff_ne]
    rintro rfl
    exact hapart (hmade _ hother)
  rw [get?, get?, hnodes, List.lookup_append, hlookup, Option.or_none]

lemma get?_makeDirectories (tree : FileTree) {path below : Path}
    (hlength : path.length < below.length) :
    (tree.makeDirectories path).1.get? below = tree.get? below :=
  get?_makeDirectories_of_apart tree fun hprefix => by
    have hle := hprefix.length_le
    omega

lemma prefix_parent {place : Path} (h : place <+: path) (hne : place ≠ path) :
    place <+: path.parent := by
  obtain ⟨below, rfl⟩ := h
  have hbelow : below ≠ [] := by
    rintro rfl
    exact hne (List.append_nil place).symm
  exact ⟨below.dropLast, (List.dropLast_append_of_ne_nil hbelow).symm⟩

lemma mem_ancestors {place : Path} (h : place <+: path) (hne : place ≠ path) :
    place ∈ path.ancestors := by
  obtain ⟨below, rfl⟩ := h
  have hbelow : below ≠ [] := by
    rintro rfl
    exact hne (List.append_nil place).symm
  have hlength := List.length_pos_iff.2 hbelow
  refine List.mem_map.2 ⟨place.length, List.mem_range.2 ?_, ?_⟩
  · rw [List.length_append]
    omega
  · exact List.take_left

lemma mem_dropWhile_of_not {places : List Path} {test : Path → Bool} {place : Path}
    (h : place ∈ places) (htest : test place = false) : place ∈ places.dropWhile test := by
  rw [← List.takeWhile_append_dropWhile (p := test) (l := places), List.mem_append] at h
  refine h.resolve_left fun htaken => ?_
  have := List.mem_takeWhile_imp htaken
  rw [htest] at this
  cases this

/-- Directories are made when the path is one already or when no file is in the way; then exactly
the missing ones are added. -/
lemma makeDirectories_cases {after : FileTree} (h : tree.makeDirectories path = (after, .ok ())) :
    (tree.get? path = some .directory ∧ after = tree) ∨
      (tree.get? path = none ∧ tree.passesFile path = false ∧
        after = ⟨tree.nodes ++
          ((path.ancestors ++ [path]).dropWhile tree.contains).map (·, .directory)⟩) := by
  unfold makeDirectories at h
  split at h
  · cases h
  · rename_i hthere
    cases h
    exact .inl ⟨hthere, rfl⟩
  · rename_i hnone
    split at h
    · cases h
    split at h
    · cases h
    rename_i hclear
    dsimp only at h
    split at h
    · cases h
    split at h
    · cases h
    split at h
    · rename_i hall
      cases h
      exact .inr ⟨hnone, by simpa using hclear, by rw [hall]⟩
    · cases h

/-- Where everything stands in a directory, making directories leaves none missing on the way. -/
lemma directory_makeDirectories (hsound : tree.Sound) {after : FileTree}
    (h : tree.makeDirectories path = (after, .ok ())) {place : Path} (hplace : place <+: path) :
    after.get? place = some .directory := by
  rcases makeDirectories_cases h with ⟨hthere, rfl⟩ | ⟨hnone, hclear, rfl⟩
  · obtain ⟨below, rfl⟩ := hplace
    rcases eq_or_ne below [] with rfl | hbelow
    · rwa [List.append_nil] at hthere
    · exact hsound place below hbelow (by rw [contains, hthere]; rfl)
  · by_cases hroot : place = []
    · rw [get?, if_pos hroot]
    have hway : place ∈ path.ancestors ++ [path] := by
      rcases eq_or_ne place path with rfl | hne
      · exact List.mem_append_right _ (List.mem_singleton_self _)
      · exact List.mem_append_left _ (mem_ancestors hplace hne)
    have hown : tree.get? place = tree.nodes.lookup place := by rw [get?, if_neg hroot]
    rw [get?, if_neg hroot, List.lookup_append, ← hown]
    cases hthere : tree.get? place with
    | none =>
      have habsent : place ∈ (path.ancestors ++ [path]).dropWhile tree.contains :=
        mem_dropWhile_of_not hway (by rw [contains, hthere]; rfl)
      rw [Option.none_or]
      exact List.lookup_graph (fun _ => Node.directory) habsent
    | some node =>
      cases node with
      | directory => rfl
      | file content =>
        have hne : place ≠ path := by
          rintro rfl
          rw [hthere] at hnone
          cases hnone
        have hfile := List.any_eq_false.1 hclear place (mem_ancestors hplace hne)
        rw [hthere] at hfile
        exact absurd rfl hfile

lemma byteCount_append (a b : Text) : byteCount (a ++ b) = byteCount a + byteCount b := by
  rw [byteCount, List.flatMap_append, List.length_append]
  rfl

lemma join_append_last (parts : List Text) (last more : Text) :
    Text.join ['/'] (parts ++ [last ++ more]) = Text.join ['/'] (parts ++ [last]) ++ more := by
  induction parts with
  | nil => rfl
  | cons first rest ih =>
    have hjoin : ∀ text, Text.join ['/'] (first :: (rest ++ [text])) =
        first ++ ['/'] ++ Text.join ['/'] (rest ++ [text]) := by
      intro text
      cases rest with
      | nil => rfl
      | cons second rest => rfl
    rw [List.cons_append, List.cons_append, hjoin, hjoin, ih, List.append_assoc, List.append_assoc,
      List.append_assoc]

/-- Where there is room for the name of a temporary file the path itself is not too long. -/
lemma isTooLong_of_room (hpath : path ≠ []) (h : leavesNoRoom path = false) :
    isTooLong path = false := by
  obtain ⟨parent, name, rfl⟩ : ∃ parent name, path = parent ++ [name] :=
    ⟨path.dropLast, path.getLast hpath, (List.dropLast_append_getLast hpath).symm⟩
  have hname : ∀ text, Path.name (parent ++ [text]) = text := by simp [Path.name]
  have hparent : Path.parent (parent ++ [name]) = parent := List.dropLast_concat
  rw [leavesNoRoom, hparent, hname, isTooLong, hname, Path.text, join_append_last] at h
  rw [isTooLong, hname, Path.text]
  rw [Bool.or_eq_false_iff, isTooLongName, isTooLongWay, decide_eq_false_iff_not,
    decide_eq_false_iff_not] at h ⊢
  rw [← List.cons_append, byteCount_append, byteCount_append] at h
  omega

end FileTree

/-- A path whose file can get new contents: it may be asked for, the directories above it can be
made, its name leaves room for that of a temporary file, and no directory stands under it. -/
structure FileTree.Writable (tree : FileTree) (path : Path) : Prop where
  askable : ∃ there, tree.holds path = .ok there
  parent : (tree.makeDirectories path.parent).2 = .ok ()
  room : leavesNoRoom path = false
  free : tree.get? path ≠ some .directory

namespace Replacement

variable {tree : FileTree} {path : Path}

lemma temporary_ne (tree : FileTree) (hpath : path ≠ []) : temporary tree path ≠ path := by
  intro h
  have hname := congrArg (fun place : Path => (place.getLast?.getD []).length) h
  obtain ⟨parent, name, rfl⟩ : ∃ parent name, path = parent ++ [name] :=
    ⟨path.dropLast, path.getLast hpath, (List.dropLast_append_getLast hpath).symm⟩
  simp [temporary, Path.name] at hname

/-- No node of the tree has the name of the temporary file. -/
lemma get?_temporary (tree : FileTree) (path : Path) :
    tree.get? (temporary tree path) = none := by
  have hne : temporary tree path ≠ [] := by simp [temporary]
  rw [FileTree.get?, if_neg hne, List.lookup_eq_none_iff]
  intro node hnode
  have hmem : node.1.name.length ∈ tree.nodes.map fun node => node.1.name.length :=
    List.mem_map_of_mem hnode
  have hlongest := List.foldl_max_eq_max (a := path.name.length) (List.ne_nil_of_mem hmem)
  have hle := List.le_max_of_mem hmem
  rw [bne_iff_ne]
  intro heq
  have hname := congrArg (fun place : Path => place.name.length) heq
  simp only [temporary, Path.name, List.getLast?_append, List.getLast?_singleton, Option.some_or,
    Option.getD_some, List.length_append, List.length_cons, List.length_replicate] at hname
  simp only [Path.name] at hlongest hle
  omega

lemma scratch_of_none (tree : FileTree) (path : Path) (content : Bytes) :
    scratch ⟨path, content, none⟩ tree = temporary tree path := rfl

/-- A replacement without a backup gives the file of a writable path its contents, the only file that
moves is the temporary one, and above the file only directories are made. -/
theorem run_of_writable (h : tree.Writable path) (content : Bytes) :
    ∃ after, Replacement.run ⟨path, content, none⟩ tree = (after, .ok ()) ∧
      Replacement.moves ⟨path, content, none⟩ tree = [(temporary tree path, path)] ∧
      after.get? path = some (.file content) ∧ ∀ place : Path, place.length < path.length →
        after.get? place = (tree.makeDirectories path.parent).1.get? place := by
  have hpath := FileTree.ne_nil_of_get? h.free
  have hlength : path.parent.length < path.length := by
    rw [Path.parent, List.length_dropLast]
    have hpos := List.length_pos_iff.2 hpath
    omega
  have hne := temporary_ne tree hpath
  set temporary := temporary tree path with htemporary
  have htemp : temporary ≠ [] := by simp [htemporary, Replacement.temporary]
  have hmade : ReplacementStep.apply tree (.makeParent path) =
      ((tree.makeDirectories path.parent).1, .ok ()) := by
    have hparent : tree.makeDirectories path.parent =
        ((tree.makeDirectories path.parent).1, .ok ()) := Prod.ext rfl h.parent
    rw [ReplacementStep.apply, hparent]
    simp [h.room]
  set made := (tree.makeDirectories path.parent).1 with hmadedef
  set written := made.put temporary (.file content) with hwritten
  have hput : ReplacementStep.apply made (.writeTemporary temporary content) = (written, .ok ()) :=
    rfl
  have hfree : written.get? path ≠ some .directory := by
    rw [hwritten, FileTree.get?_put_of_ne made hne.symm, hmadedef,
      FileTree.get?_makeDirectories tree hlength]
    exact h.free
  have hsource : written.get? temporary = some (.file content) :=
    FileTree.get?_put made htemp (.file content)
  have hinstall : ReplacementStep.apply written (.install temporary path) =
      (written.move temporary path, .ok ()) := by
    rw [ReplacementStep.apply, FileTree.rename_file hsource hfree hne
      (FileTree.isTooLong_of_room hpath h.room), FileTree.after]
  have hsteps : steps ⟨path, content, none⟩ temporary =
      [.makeParent path, .writeTemporary temporary content, .install temporary path] := rfl
  refine ⟨written.move temporary path, ?_, ?_, ?_, ?_⟩
  · rw [run, scratch_of_none, ← htemporary, hsteps]
    simp only [runSteps, hmade, hput, hinstall]
  · rw [moves, scratch_of_none, ← htemporary, hsteps]
    simp only [movesOf, hmade, hput, hinstall, ReplacementStep.move?, Option.toList_none,
      Option.toList_some, List.nil_append, List.append_nil]
  · rw [FileTree.get?_move written htemp hpath hne, hsource]
  · intro place hplace
    have hlengths : path.length ≤ temporary.length := by
      rw [htemporary, Replacement.temporary, Path.parent, List.length_append, List.length_dropLast,
        List.length_singleton]
      omega
    have hshorter : place ≠ temporary := by
      rintro rfl
      omega
    rw [FileTree.get?_move_of_apart written (fun h => absurd h.length_le (by omega))
      (fun h => absurd h.length_le (by omega)), hwritten, FileTree.get?_put_of_ne made hshorter]

end Replacement

end Keyfile
