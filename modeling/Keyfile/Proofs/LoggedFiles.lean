import Keyfile.Log.Delivery
import Keyfile.Proofs.Replacing

/-!
# Files that logging leaves alone

A handler changes its own file, and a rotating one its kept files too. What stands under a path that
is apart from all of these stays as it is, as long as no stream is open on it.
-/

namespace Keyfile

namespace Log

namespace Streams

/-- No stream is open on the file of a path. -/
def Avoids (streams : Streams) (path : Path) : Prop :=
  ∀ number stream, streams.get? number = some stream → stream.place ≠ .path path

variable {streams : Streams} {path source target : Path}

lemma Avoids.set (h : streams.Avoids path) {new : Option Stream}
    (hnew : ∀ stream, new = some stream → stream.place ≠ .path path) (number : Nat) :
    (streams.set number new).Avoids path := by
  intro other stream hstream
  rw [Streams.get?, Streams.set, List.getElem?_set] at hstream
  split at hstream
  · split at hstream
    · exact hnew stream hstream
    · cases hstream
  · exact h other stream hstream

lemma get?_mapPlaces (streams : Streams) (f : Place → Place) (number : Nat) :
    (streams.mapPlaces f).get? number =
      (streams.get? number).map fun stream => { stream with place := f stream.place } := by
  rw [Streams.get?, Streams.get?, mapPlaces, List.getElem?_map]
  cases streams.streams[number]? <;> rfl

lemma avoids_mapPlaces {f : Place → Place} (h : ∀ number stream,
    streams.get? number = some stream → f stream.place ≠ .path path) :
    (streams.mapPlaces f).Avoids path := by
  intro number stream hstream
  rw [get?_mapPlaces] at hstream
  obtain ⟨before, hbefore, rfl⟩ := Option.map_eq_some_iff.1 hstream
  exact h number before hbefore

/-- The streams of a file that lost its name are open on no path. -/
lemma place_leave {content : Bytes} {number : Nat} {stream : Stream} {place : Path}
    (h : (streams.leave target content).get? number = some stream)
    (hplace : stream.place = .path place) : place ≠ target ∧
      ∃ before, streams.get? number = some before ∧ before.place = .path place := by
  have h : (streams.mapPlaces fun place =>
      if place = .path target then .nameless streams.nameless.length else place).get? number =
        some stream := h
  rw [get?_mapPlaces] at h
  obtain ⟨before, hbefore, rfl⟩ := Option.map_eq_some_iff.1 h
  dsimp only at hplace
  split at hplace
  · cases hplace
  · rename_i hne
    refine ⟨?_, before, hbefore, hplace⟩
    rintro rfl
    exact hne hplace

lemma Avoids.leave (h : streams.Avoids path) (target : Path) (content : Bytes) :
    (streams.leave target content).Avoids path := by
  intro number stream hstream hplace
  obtain ⟨-, before, hbefore, hplace⟩ := place_leave hstream hplace
  exact h number before hbefore hplace

/-- What is at a path after a move was there before, or came from below the source. -/
lemma moved_eq_path {place : Place} (h : moved source target place = .path path) :
    place = .path path ∨ ∃ below, place = .path (source ++ below) ∧ path = target ++ below := by
  cases place with
  | nameless n => cases h
  | path place =>
    rw [moved] at h
    split at h
    · rename_i hbelow
      obtain ⟨below, rfl⟩ := List.isPrefixOf_iff_prefix.1 hbelow
      rw [List.drop_left] at h
      exact .inr ⟨below, rfl, (Place.path.inj h).symm⟩
    · exact .inl h

/-- A move opens no stream on a path when none is open there or where its node comes from. -/
lemma Avoids.follow_of_source (h : streams.Avoids path)
    (hsource : ∀ below, path = target ++ below → streams.Avoids (source ++ below))
    (files : FileTree) : (streams.follow files source target).Avoids path := by
  have hmoved : ∀ {left : Streams}, (∀ {place}, streams.Avoids place → left.Avoids place) →
      (left.mapPlaces (moved source target)).Avoids path := by
    intro left hleft
    apply avoids_mapPlaces
    intro number stream hstream hplace
    rcases moved_eq_path hplace with hplace | ⟨below, hplace, hpath⟩
    · exact hleft h number stream hstream hplace
    · exact hleft (hsource below hpath) number stream hstream hplace
  unfold Streams.follow
  split
  · exact h
  · split
    · exact hmoved fun h => h.leave _ _
    · exact hmoved id

lemma Avoids.follow (h : streams.Avoids path) (htarget : ¬target <+: path) (files : FileTree)
    (source : Path) : (streams.follow files source target).Avoids path :=
  h.follow_of_source (fun below hpath => absurd ⟨below, hpath.symm⟩ htarget) files

/-- Streams that keep away from some places still do when they have followed moves, if what comes to
one of the places comes from another of them. -/
lemma avoids_foldl_follow {places : Path → Prop} (files : FileTree) {moves : List (Path × Path)}
    (hmoves : ∀ move ∈ moves, ∀ below, places (move.2 ++ below) → places (move.1 ++ below))
    (h : ∀ place, places place → streams.Avoids place) :
    ∀ place, places place →
      (moves.foldl (fun streams move => streams.follow files move.1 move.2)
        streams).Avoids place := by
  induction moves generalizing streams with
  | nil => exact h
  | cons move rest ih =>
    obtain ⟨hmove, hrest⟩ := List.forall_mem_cons.1 hmoves
    apply ih hrest
    intro place hplace
    refine (h place hplace).follow_of_source (fun below hbelow => ?_) files
    exact h _ (hmove below (hbelow ▸ hplace))

lemma write_of_avoids (h : streams.Avoids path) (files : FileTree) (number : Nat) (bytes : Bytes) :
    (streams.write files number bytes).1.get? path = files.get? path ∧
      (streams.write files number bytes).2.Avoids path := by
  unfold write
  split
  · exact ⟨rfl, h⟩
  · rename_i stream hstream
    have hset : ∀ position,
        (streams.set number (some { stream with position })).Avoids path := by
      intro position
      refine h.set ?_ number
      rintro _ ⟨⟩
      exact h number stream hstream
    split
    · exact ⟨rfl, h⟩
    · dsimp only
      split
      · rename_i place hplace
        have hne : path ≠ place := by
          rintro rfl
          exact h number stream hstream hplace
        exact ⟨FileTree.get?_put_of_ne files hne _, hset _⟩
      · exact ⟨rfl, hset _⟩

/-- Each open stream that has a path is at a file. -/
def AtFiles (streams : Streams) (files : FileTree) : Prop :=
  ∀ number stream place, streams.get? number = some stream → stream.place = .path place →
    ∃ content, files.get? place = some (.file content)

/-- A path that a new file takes has no stream: one of the previous file has no path any more. -/
lemma AtFiles.avoids_follow {files : FileTree} (h : streams.AtFiles files)
    (hsource : files.get? source = none) (hne : source ≠ path) :
    (streams.follow files source path).Avoids path := by
  have hmoved : ∀ {before : Streams}, (∀ number stream place, before.get? number = some stream →
      stream.place = .path place → place ≠ path ∧ place ≠ source) →
        (before.mapPlaces (moved source path)).Avoids path := by
    intro before hbefore
    apply avoids_mapPlaces
    intro number stream hstream
    cases hplace : stream.place with
    | nameless n => simp [moved]
    | path place =>
      obtain ⟨hother, hsource⟩ := hbefore number stream place hstream hplace
      rw [moved]
      split
      · rename_i hprefix
        obtain ⟨below, rfl⟩ := List.isPrefixOf_iff_prefix.1 hprefix
        have hbelow : below ≠ [] := by
          rintro rfl
          exact hsource (List.append_nil source)
        simpa using hbelow
      · simpa using hother
  have hfresh : ∀ number stream place, streams.get? number = some stream →
      stream.place = .path place → place ≠ source := by
    rintro number stream place hstream hplace rfl
    obtain ⟨content, hcontent⟩ := h number stream place hstream hplace
    rw [hsource] at hcontent
    cases hcontent
  rw [Streams.follow, if_neg hne]
  split
  · apply hmoved
    intro number stream place hstream hplace
    obtain ⟨hleft, before, hbefore, hthere⟩ := place_leave hstream hplace
    exact ⟨hleft, hfresh number before place hbefore hthere⟩
  · rename_i hnone
    refine hmoved fun number stream place hstream hplace =>
      ⟨?_, hfresh number stream place hstream hplace⟩
    rintro rfl
    obtain ⟨content, hcontent⟩ := h number stream place hstream hplace
    exact hnone content hcontent

end Streams

/-- A target changes what stands under a path: its own file, and for a rotating one what stands at
or below it or one of its kept files. -/
inductive Target.Touches (path : Path) : Target → Prop
  | file {mode : Mode} {stream : Nat} : Touches path (.file path mode stream)
  | rotating {own : Path} {mode : Mode} {limit backups : Int} {stream : Nat} (h : own <+: path) :
      Touches path (.rotating own mode limit backups stream)
  | kept {own : Path} {mode : Mode} {limit backups : Int} {stream number : Nat}
      (h : Output.numbered own number <+: path) :
      Touches path (.rotating own mode limit backups stream)

namespace Output

/-- A node stands under a path, and no stream is open on it. -/
structure Spares (output : Output) (path : Path) (node : Option Node) : Prop where
  node : output.files.get? path = node
  streams : output.streams.Avoids path

variable {output next : Output} {path own : Path} {node : Option Node} {mode : Mode} {stream : Nat}

lemma get?_of_openFile {files after : FileTree} (hne : path ≠ own)
    (h : mode.openFile files own = .ok after) : after.get? path = files.get? path := by
  have hput := FileTree.get?_put_of_ne files hne (.file [])
  cases hthere : files.get? own with
  | none =>
    have hmade : (if FileTree.isTooLong own then .error .nameTooLong
        else .ok (files.put own (.file [])) : Except FileError FileTree) = .ok after →
          after.get? path = files.get? path := by
      intro h
      split at h
      · cases h
      · cases h
        exact hput
    cases mode with
    | update => simp [Mode.openFile, hthere] at h
    | read => simp [Mode.openFile, hthere] at h
    | _ => exact hmade (by simpa [Mode.openFile, hthere] using h)
  | some found =>
    cases found with
    | directory => cases mode <;> simp [Mode.openFile, hthere] at h
    | file content =>
      cases mode with
      | create => simp [Mode.openFile, hthere] at h
      | truncate =>
        obtain rfl : files.put own (.file []) = after := by simpa [Mode.openFile, hthere] using h
        exact hput
      | _ =>
        obtain rfl : files = after := by simpa [Mode.openFile, hthere] using h
        rfl

lemma Spares.ensureOpen (h : output.Spares path node) (hne : path ≠ own)
    (heq : output.ensureOpen own mode stream = some next) : next.Spares path node := by
  unfold Output.ensureOpen at heq
  split at heq
  · cases heq
    exact h
  · split at heq
    · cases heq
    · rename_i files hfiles
      cases heq
      refine ⟨(get?_of_openFile hne hfiles).trans h.node, h.streams.set ?_ stream⟩
      rintro _ ⟨⟩ hplace
      exact hne (Place.path.inj hplace).symm

lemma Spares.writeTo (h : output.Spares path node) (hne : path ≠ own) (text : Text) :
    (output.writeTo own mode stream text).Spares path node := by
  unfold Output.writeTo
  split
  · exact h
  · rename_i opened hopened
    have hspares := h.ensureOpen hne hopened
    obtain ⟨hfiles, hstreams⟩ := Streams.write_of_avoids hspares.streams opened.files stream
      (text.flatMap Encoding.utf8Bytes)
    exact ⟨hfiles.trans hspares.node, hstreams⟩

lemma Spares.remove {target : Path} (h : output.Spares path node) (hne : path ≠ target)
    (heq : output.remove target = some next) : next.Spares path node := by
  unfold Output.remove at heq
  split at heq
  · cases heq
    exact h
  · cases heq
  · cases heq
    exact ⟨(FileTree.get?_erase_of_ne _ hne).trans h.node, h.streams.leave _ _⟩

lemma Spares.move {source target : Path} (h : output.Spares path node) (hsource : ¬source <+: path)
    (htarget : ¬target <+: path) (heq : output.move source target = some next) :
    next.Spares path node := by
  have hne : path ≠ target := by
    rintro rfl
    exact htarget List.prefix_rfl
  unfold Output.move at heq
  split at heq
  · cases heq
  · rename_i removed hremoved
    have hspares := h.remove hne hremoved
    split at heq
    · cases heq
      exact hspares
    · split at heq
      · cases heq
      · cases heq
        exact ⟨(FileTree.get?_move_of_apart _ hsource htarget).trans hspares.node,
          hspares.streams.follow htarget _ _⟩

lemma Spares.shift (h : output.Spares path node) (hkept : ∀ number, ¬numbered own number <+: path)
    (numbers : List Nat) : (output.shift own numbers).1.Spares path node := by
  induction numbers generalizing output with
  | nil => exact h
  | cons number rest ih =>
    unfold Output.shift
    split
    · split
      · exact h
      · rename_i moved hmoved
        exact ih (h.move (hkept _) (hkept _) hmoved)
    · exact ih h

lemma Spares.moveAside (h : output.Spares path node) (hown : ¬own <+: path)
    (hkept : ∀ number, ¬numbered own number <+: path) (backups : Int) :
    (output.moveAside own backups).1.Spares path node := by
  unfold Output.moveAside
  split
  · exact h
  · have hshift := h.shift hkept ((List.range (backups.toNat - 1)).reverse.map (· + 1))
    split
    · rename_i shifted heq
      rwa [heq] at hshift
    · rename_i shifted heq
      rw [heq] at hshift
      split
      · exact hshift
      · rename_i moved hmoved
        exact hshift.move hown (hkept 1) hmoved

lemma Spares.rotate (h : output.Spares path node) (hown : ¬own <+: path)
    (hkept : ∀ number, ¬numbered own number <+: path) (mode : Mode) (backups : Int)
    (stream : Nat) : (output.rotate own mode backups stream).1.Spares path node := by
  have hne : path ≠ own := by
    rintro rfl
    exact hown List.prefix_rfl
  have hclosed : Spares { output with streams := output.streams.set stream none } path node := by
    refine ⟨h.node, h.streams.set ?_ stream⟩
    rintro _ ⟨⟩
  have hmoved := hclosed.moveAside hown hkept backups
  rw [Output.rotate]
  split
  · rename_i moved heq
    rwa [heq] at hmoved
  · rename_i moved heq
    rw [heq] at hmoved
    split
    · rename_i opened hopened
      exact hmoved.ensureOpen hne hopened
    · exact hmoved

lemma Spares.prepare (h : output.Spares path node) (hown : ¬own <+: path)
    (hkept : ∀ number, ¬numbered own number <+: path) (mode : Mode) (limit backups : Int)
    (stream length : Nat) :
    (output.prepare own mode limit backups stream length).1.Spares path node := by
  have hne : path ≠ own := by
    rintro rfl
    exact hown List.prefix_rfl
  unfold Output.prepare
  split
  · exact h
  · split
    · exact h
    · rename_i opened hopened
      have hspares := h.ensureOpen hne hopened
      split
      · exact hspares.rotate hown hkept mode backups stream
      · exact hspares

/-- A handler leaves a path alone that its target does not touch. -/
lemma Spares.write (h : output.Spares path node) {handler : Handler}
    (hhandler : ¬handler.target.Touches path) (time : Text) (record : Record) :
    (output.write time record handler).Spares path node := by
  rw [Output.write]
  split
  · exact ⟨h.node, h.streams⟩
  · rename_i own mode stream htarget
    refine h.writeTo ?_ _
    rintro rfl
    exact hhandler (htarget ▸ .file)
  · rename_i own mode limit backups stream htarget
    have hown : ¬own <+: path := fun hprefix => hhandler (htarget ▸ .rotating hprefix)
    have hkept : ∀ number, ¬numbered own number <+: path :=
      fun number hprefix => hhandler (htarget ▸ .kept hprefix)
    have hne : path ≠ own := by
      rintro rfl
      exact hown List.prefix_rfl
    have hprepare := h.prepare hown hkept mode limit backups stream
      (handler.layout.format time record ++ ['\n']).length
    split
    · rename_i ready heq
      rw [heq] at hprepare
      exact hprepare.writeTo hne _
    · rename_i ready heq
      rwa [heq] at hprepare

/-- So do all handlers that take a record. -/
lemma Spares.deliver (h : output.Spares path node) {loggers : Loggers} {record : Record}
    (hhandlers : ∀ handler ∈ loggers.handlersFor record, ¬handler.target.Touches path)
    (time : Text) : (output.deliver time loggers record).Spares path node := by
  have hfold : ∀ (handlers : List Handler) (output : Output), output.Spares path node →
      (∀ handler ∈ handlers, ¬handler.target.Touches path) →
        (handlers.foldl (fun output handler => output.write time record handler) output).Spares
          path node := by
    intro handlers
    induction handlers with
    | nil => exact fun _ h _ => h
    | cons handler rest ih =>
      intro output h hhandlers
      obtain ⟨hhandler, hrest⟩ := List.forall_mem_cons.1 hhandlers
      exact ih _ (h.write hhandler time record) hrest
  exact hfold _ _ h hhandlers

end Output

end Log

end Keyfile
