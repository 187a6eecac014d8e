import Keyfile.Proofs.EditedLines
import Keyfile.Proofs.LogSetup

/-!
# Files whose definitions are edited again and again

An edit reads a file, edits its lines and replaces it. On the way to the bytes and back nothing is
lost, and the file can be edited again, so a sequence of edits comes to editing the lines. Edits of
two macros can be made in either order, and of two edits of one macro the last one counts.
-/

namespace Keyfile

variable {source name value text : Text}

/-- The places that count when a file is replaced: its own, the directory that it stands in, and
those of temporary files. -/
inductive Path.Reserved (path : Path) : Path → Prop
  | own : Reserved path path
  | directory : Reserved path path.parent
  | temporary (length : Nat) :
      Reserved path (path.parent ++ [path.name ++ '.' :: List.replicate length '_'])

/-- A world has a file under a name: the name stands for its path, it stands in a directory, and
logging keeps away from it. -/
structure World.Offers (world : World) (file : Text) (path : Path) (content : Bytes) : Prop where
  named : ((Session.resolve file).run.run world).1 = .ok path
  node : world.files.get? path = some (.file content)
  directory : world.files.get? path.parent = some .directory
  quiet : world.Undisturbed path.Reserved

lemma FileTree.erase_of_get?_eq_none {tree : FileTree} {path : Path} (hpath : path ≠ [])
    (h : tree.get? path = none) : tree.erase path = tree := by
  rw [get?, if_neg hpath, List.lookup_eq_none_iff] at h
  have hkept : tree.nodes.filter (·.1 != path) = tree.nodes := by
    rw [List.filter_eq_self]
    intro node hnode
    rw [bne_comm]
    exact h node hnode
  rw [erase, hkept]

namespace World.Offers

variable {world : World} {file : Text} {path : Path} {content : Bytes} {encoding : Encoding}

lemma ne_nil (h : world.Offers file path content) : path ≠ [] := by
  have hfree : world.files.get? path ≠ some .directory := by simp [h.node]
  exact FileTree.ne_nil_of_get? hfree

lemma makeDirectories_parent (h : world.Offers file path content) :
    world.files.makeDirectories path.parent = (world.files, .ok ()) := by
  rw [FileTree.makeDirectories, h.directory]

lemma writable (h : world.Offers file path content) (hroom : leavesNoRoom path = false) :
    world.files.Writable path where
  askable := ⟨true, by rw [FileTree.holds, FileTree.contains, h.node]; rfl⟩
  parent := by rw [h.makeDirectories_parent]
  room := hroom
  free := by simp [h.node]

/-- Recording leaves the file as it is. -/
lemma deliver (h : world.Offers file path content) (event : Event) :
    (world.deliver event.toRecord).Offers file path content := by
  have hshows := h.quiet.shows.deliver event
  have hsetting : (world.deliver event.toRecord).SameSetting world := ⟨rfl, rfl, rfl, rfl⟩
  exact {
    named := (hsetting.result_resolve file).trans h.named
    node := (hshows.node _ .own).trans h.node
    directory := (hshows.node _ .directory).trans h.directory
    quiet := hshows.undisturbed }

/-- Following the temporary file to its place opens no stream where it counts. -/
lemma avoids_follow (h : world.Offers file path content) {place : Path}
    (hplace : path.Reserved place) :
    (world.streams.follow world.files (Replacement.temporary world.files path) path).Avoids
      place := by
  apply (h.quiet.streams place hplace).follow_of_source
  rintro below rfl
  have hbelow : below = [] := by
    have hpos := List.length_pos_iff.2 h.ne_nil
    have hparent : path.parent.length + 1 = path.length := by
      rw [Path.parent, List.length_dropLast]
      omega
    have hlength : (path ++ below).length ≤ path.length := by
      generalize hown : path ++ below = own at hplace
      cases hplace with
      | own => exact le_rfl
      | directory => omega
      | temporary length =>
        rw [List.length_append, List.length_singleton]
        omega
    rw [List.length_append] at hlength
    exact List.length_eq_zero_iff.1 (by omega)
  rw [hbelow, List.append_nil]
  exact h.quiet.streams _ (.temporary _)

lemma replaced (h : world.Offers file path content) {files : FileTree} {written : Bytes}
    (hwrote : Session.Wrote world.files files path written) :
    Offers { world with
      files
      streams := world.streams.follow world.files (Replacement.temporary world.files path) path }
      file path written := by
  have hsetting : World.SameSetting { world with
      files
      streams := world.streams.follow world.files (Replacement.temporary world.files path) path }
      world := ⟨rfl, rfl, rfl, rfl⟩
  refine ⟨(hsetting.result_resolve file).trans h.named, hwrote.node, ?_, h.quiet.handlers,
    fun place hplace => h.avoids_follow hplace⟩
  have hpos := List.length_pos_iff.2 h.ne_nil
  rw [hwrote.above path.parent (by rw [Path.parent, List.length_dropLast]; omega),
    h.makeDirectories_parent]
  exact h.directory

end World.Offers

namespace Session

section Single

variable {world : World} {file : Text} {path : Path} {content written : Bytes}
  {encoding : Encoding}

lemma run_readText_of_decode? (hnode : world.files.get? path = some (.file content))
    (hsource : encoding.decode? content = some source) :
    (readText path encoding).run.run world = (.ok (Text.normalizeNewlines source), world) := by
  have hread : (readBytes path).run.run world = (.ok content, world) := by
    have hbytes : world.files.read path = .ok content := by rw [FileTree.read, hnode]
    change ((Except.mapError Failure.file (world.files.read path)), world) = _
    rw [hbytes]
    rfl
  rw [readText, run_bind_of_ok hread, hsource]
  rfl

/-- Writing a text over a file comes to replacing the file by the bytes of the text. -/
lemma run_writeText_of_encode? (hnode : world.files.get? path = some (.file content))
    (hwritten : encoding.encode? text = some written) :
    (writeText path text encoding).run.run world = (do
      replaceFile ⟨path, written, none⟩
      Journal.record (.textWritten (pathText path)) : Session Unit).run.run world := by
  have hholds : (holds path).run.run world = (.ok true, world) := by
    have hthere : world.files.holds path = .ok true := by
      rw [FileTree.holds, FileTree.contains, hnode]
      rfl
    change ((Except.mapError Failure.file (world.files.holds path)), world) = _
    rw [hthere]
    rfl
  rw [writeText, run_bind_of_ok hholds]
  simp only [Bool.not_true, Bool.and_false, Bool.false_eq_true, if_false, hwritten]

/-- What an edit comes to when its file is there: the edited text takes the place of the file, and
the answer is whether the file had a line to edit. -/
lemma run_editDefinitions (h : world.Offers file path content)
    (hsource : encoding.decode? content = some source)
    (hwritten : encoding.encode? (Keyfile.editDefinitions name value source) = some written) :
    (Session.editDefinitions file name value encoding).run.run world = (do
      replaceFile ⟨path, written, none⟩
      Journal.record (.textWritten (pathText path))
      if hasDefinition name source then Journal.record (.definitionsChanged name file)
      return hasDefinition name source : Session Bool).run.run world := by
  have hresolve : (resolve file).run.run world = (.ok path, world) :=
    Prod.ext h.named (looks_resolve file world)
  rw [Session.editDefinitions, run_bind_of_ok hresolve,
    run_bind_of_ok (run_readText_of_decode? h.node hsource), editDefinitions_normalizeNewlines,
    hasDefinition_normalizeNewlines, run_bind, run_writeText_of_encode? h.node hwritten,
    ← run_bind, bind_assoc]

/-- An edit of a file with room for a temporary one beside it leaves the edited text. -/
lemma exists_run_edit (h : world.Offers file path content) (hroom : leavesNoRoom path = false)
    (hsource : encoding.decode? content = some source)
    (hwritten : encoding.encode? (Keyfile.editDefinitions name value source) = some written) :
    ∃ after, (Session.editDefinitions file name value encoding).run.run world =
        (.ok (hasDefinition name source), after) ∧ after.Offers file path written := by
  obtain ⟨files, hreplace, hwrote⟩ := exists_run_replaceFile (h.writable hroom) written
  have hoffers := (h.replaced hwrote).deliver (.textWritten (pathText path))
  rw [run_editDefinitions h hsource hwritten, run_bind_of_ok hreplace]
  cases hasDefinition name source with
  | false => exact ⟨_, rfl, hoffers⟩
  | true => exact ⟨_, rfl, hoffers.deliver (.definitionsChanged name file)⟩

/-- Without that room a replacement stops before its first file, and changes nothing. -/
lemma run_replaceFile_of_no_room (h : world.Offers file path content)
    (hroom : leavesNoRoom path = true) (written : Bytes) :
    (replaceFile ⟨path, written, none⟩).run.run world = (.error (.file .nameTooLong), world) := by
  set replacement : Replacement := ⟨path, written, none⟩ with hreplacement
  have happly : ReplacementStep.apply world.files (.makeParent path) =
      (world.files, .error .nameTooLong) := by
    rw [ReplacementStep.apply, h.makeDirectories_parent]
    simp only [hroom, if_true]
  have hfree : world.files.erase (replacement.scratch world.files) = world.files :=
    FileTree.erase_of_get?_eq_none (replacement.scratch_ne_nil _) (replacement.get?_scratch _)
  have hrun : replacement.run world.files = (world.files, .error .nameTooLong) := by
    have hsteps : runSteps world.files (replacement.steps (replacement.scratch world.files)) =
        (world.files, .error .nameTooLong) := by
      rw [Replacement.steps, List.append_assoc, List.cons_append, runSteps, happly]
    rw [Replacement.run]
    simp only [hsteps, hfree]
  have hmoves : replacement.moves world.files = [] := by
    rw [Replacement.moves, Replacement.steps, List.append_assoc, List.cons_append, movesOf, happly]
  have hget : (get : Session World).run.run world = (.ok world, world) := rfl
  rw [replaceFile, run_bind_of_ok hget, hrun, hmoves]
  rfl

/-- So every edit fails then. -/
lemma run_edit_of_no_room (h : world.Offers file path content) (hroom : leavesNoRoom path = true)
    (hsource : encoding.decode? content = some source)
    (hwritten : encoding.encode? (Keyfile.editDefinitions name value source) = some written) :
    (Session.editDefinitions file name value encoding).run.run world =
      (.error (.file .nameTooLong), world) := by
  rw [run_editDefinitions h hsource hwritten, run_bind, run_replaceFile_of_no_room h hroom]

end Single

/-- The answers of some edits, each in the world that the one before it left, and the world that the
last one leaves. -/
def edits (file : Text) (encoding : Encoding) :
    List NewDefinition → World → List (Except Failure Bool) × World
  | [], world => ([], world)
  | edit :: rest, world =>
    let (answer, after) :=
      (Session.editDefinitions file edit.name edit.value encoding).run.run world
    let (answers, last) := edits file encoding rest after
    (answer :: answers, last)

end Session

/-- The new text of a definition is on one line, and an encoding has bytes for it. -/
structure NewDefinition.Suits (encoding : Encoding) (edit : NewDefinition) : Prop where
  unbroken : Text.Unbroken edit.value
  covers : encoding.Covers edit.value

namespace Session

section Repeated

variable {world : World} {file : Text} {path : Path} {content : Bytes} {encoding : Encoding}
  {list : List NewDefinition} {edit : NewDefinition}

lemma exists_written (hsource : encoding.decode? content = some source)
    (hsuits : edit.Suits encoding) : ∃ written,
      encoding.encode? (Keyfile.editDefinitions edit.name edit.value source) = some written :=
  Encoding.exists_encode?_iff.2
    (covers_editDefinitions (Encoding.covers_of_decode? hsource) hsuits.covers)

/-- However many edits there are, each answers what it would answer alone, and the lines of the file
are edited one by one. -/
lemma edits_of_room (h : world.Offers file path content) (hroom : leavesNoRoom path = false)
    (hsource : encoding.decode? content = some source)
    (hsuits : ∀ edit ∈ list, edit.Suits encoding) :
    (edits file encoding list world).1 = list.map (.ok <| hasDefinition ·.name source) ∧
      (list ≠ [] → ∃ written, encoding.encode? (editedText list source) = some written ∧
        (edits file encoding list world).2.Offers file path written) := by
  induction list generalizing world content source with
  | nil => exact ⟨rfl, fun h => absurd rfl h⟩
  | cons edit rest ih =>
    obtain ⟨hedit, hrest⟩ := List.forall_mem_cons.1 hsuits
    obtain ⟨written, hwritten⟩ := exists_written hsource hedit
    obtain ⟨after, hrun, hafter⟩ := exists_run_edit h hroom hsource hwritten
    obtain ⟨hanswers, hoffers⟩ := ih hafter (Encoding.decode?_of_encode? hwritten) hrest
    rw [edits, hrun]
    dsimp only
    -- the rest is answered for the edited text, which has lines to edit where the source has them
    refine ⟨?_, fun _ => ?_⟩
    · rw [hanswers, List.map_cons]
      simp only [hasDefinition_editDefinitions hedit.unbroken]
    · cases rest with
      | nil => exact ⟨written, hwritten, hafter⟩
      | cons next rest =>
        obtain ⟨last, hlast, hoffers⟩ := hoffers (List.cons_ne_nil _ _)
        rw [editedText_editDefinitions hedit.unbroken] at hlast
        exact ⟨last, hlast, hoffers⟩

lemma edits_of_no_room (h : world.Offers file path content) (hroom : leavesNoRoom path = true)
    (hsource : encoding.decode? content = some source)
    (hsuits : ∀ edit ∈ list, edit.Suits encoding) :
    edits file encoding list world = (list.map fun _ => .error (.file .nameTooLong), world) := by
  induction list with
  | nil => rfl
  | cons edit rest ih =>
    obtain ⟨hedit, hrest⟩ := List.forall_mem_cons.1 hsuits
    obtain ⟨written, hwritten⟩ := exists_written hsource hedit
    rw [edits, run_edit_of_no_room h hroom hsource hwritten]
    dsimp only
    rw [ih hrest]
    rfl

/-- Two sequences of edits that make the same text of the source leave the same bytes. -/
lemma get?_edits_congr {others : List NewDefinition} (h : world.Offers file path content)
    (hsource : encoding.decode? content = some source)
    (hsuits : ∀ edit ∈ list, edit.Suits encoding) (hothers : ∀ edit ∈ others, edit.Suits encoding)
    (hlist : list ≠ []) (hne : others ≠ [])
    (htext : editedText list source = editedText others source) :
    (edits file encoding list world).2.files.get? path =
      (edits file encoding others world).2.files.get? path := by
  cases hroom : leavesNoRoom path with
  | true =>
    rw [edits_of_no_room h hroom hsource hsuits, edits_of_no_room h hroom hsource hothers]
  | false =>
    obtain ⟨written, hwritten, hoffers⟩ := (edits_of_room h hroom hsource hsuits).2 hlist
    obtain ⟨other, hother, hoffersOther⟩ := (edits_of_room h hroom hsource hothers).2 hne
    rw [htext] at hwritten
    obtain rfl := Option.some.inj (hwritten.symm.trans hother)
    rw [hoffers.node, hoffersOther.node]

/-- Each edit of a sequence answers what it answers alone. -/
lemma answers_edits (h : world.Offers file path content)
    (hsource : encoding.decode? content = some source)
    (hsuits : ∀ edit ∈ list, edit.Suits encoding) :
    (edits file encoding list world).1 = list.map fun edit =>
      if leavesNoRoom path then .error (.file .nameTooLong)
      else .ok (hasDefinition edit.name source) := by
  cases hroom : leavesNoRoom path with
  | true => rw [edits_of_no_room h hroom hsource hsuits]; rfl
  | false => rw [(edits_of_room h hroom hsource hsuits).1]; rfl

/-- Edits are made line by line, in any order, and the last one counts. Two edits of different
macros leave the same bytes and give the same answers when they change places; of two edits of one
macro the first leaves no trace. After any edits the file has the lines that it had, all ended
alike, of which those that define an edited macro say what its last edit wrote. Only when the name
of the file leaves no room for that of a temporary one does every edit fail, and then nothing
changes. -/
theorem edits_repeated (h : world.Offers file path content)
    (hsource : encoding.decode? content = some source) :
    (∀ first second : NewDefinition, first.Suits encoding → second.Suits encoding →
      (first.name ≠ second.name →
        (edits file encoding [first, second] world).1 =
            (edits file encoding [second, first] world).1.reverse ∧
          (edits file encoding [first, second] world).2.files.get? path =
            (edits file encoding [second, first] world).2.files.get? path) ∧
      (first.name = second.name →
        (edits file encoding [first, second] world).2.files.get? path =
          (edits file encoding [second] world).2.files.get? path)) ∧
    ∀ list : List NewDefinition, list ≠ [] → (∀ edit ∈ list, edit.Suits encoding) →
      if leavesNoRoom path then
        edits file encoding list world =
          (list.map fun _ => .error (.file .nameTooLong), world)
      else
        (edits file encoding list world).1 = list.map (.ok <| hasDefinition ·.name source) ∧
        ∃ written edited,
          (edits file encoding list world).2.files.get? path = some (.file written) ∧
          encoding.decode? written = some edited ∧
          edited = (Text.lines edited).flatMap (· ++ Text.crlf) ∧
          Text.lines edited = (Text.lines source).map (lastWritten list) := by
  refine ⟨fun first second hfirst hsecond => ?_, fun list hlist hsuits => ?_⟩
  · have hsuits : ∀ edit ∈ [first, second], edit.Suits encoding := by simp [hfirst, hsecond]
    have hswapped : ∀ edit ∈ [second, first], edit.Suits encoding := by simp [hfirst, hsecond]
    have hlast : ∀ edit ∈ [second], edit.Suits encoding := by simp [hsecond]
    refine ⟨fun hne => ⟨?_, ?_⟩, fun heq => ?_⟩
    · rw [answers_edits h hsource hsuits, answers_edits h hsource hswapped]
      rfl
    · exact get?_edits_congr h hsource hsuits hswapped (by simp) (by simp)
        (editedText_comm hne source)
    · exact get?_edits_congr h hsource hsuits hlast (by simp) (by simp)
        (editedText_of_same_name heq source)
  · split
    · rename_i hroom
      exact edits_of_no_room h hroom hsource hsuits
    · rename_i hroom
      obtain ⟨hanswers, hoffers⟩ :=
        edits_of_room h (eq_false_of_ne_true hroom) hsource hsuits
      obtain ⟨written, hwritten, hoffers⟩ := hoffers hlist
      have hlines : Text.lines (editedText list source) =
          (Text.lines source).map (lastWritten list) :=
        lines_editedText (fun edit hedit => (hsuits edit hedit).unbroken) source
      refine ⟨hanswers, written, editedText list source, hoffers.node,
        Encoding.decode?_of_encode? hwritten, ?_, hlines⟩
      rw [hlines, List.flatMap_map, editedText]
      simp only [editedLine_eq_lastWritten]

end Repeated

/-- A definition with an accent, one of another macro, and a last line that does not end. -/
def mottoText : Text :=
  "#define MOTTO café\n #define\tHOST a\r\n#define HOST b ".toList

def mottoBytes : Bytes :=
  mottoText.map fun c => Encoding.byte c.toNat

/-- A world with one file in Latin-1, and no loggers. -/
def mottoWorld : World where
  machine := default
  files := ⟨[(["motto.ini".toList], .file mottoBytes)]⟩

lemma offers_mottoWorld :
    mottoWorld.Offers "motto.ini".toList ["motto.ini".toList] mottoBytes where
  named := rfl
  node := rfl
  directory := rfl
  quiet := World.undisturbed_of_silent rfl rfl

def emptyMotto : NewDefinition :=
  ⟨"MOTTO".toList, []⟩

def accentedMotto : NewDefinition :=
  ⟨"MOTTO".toList, "é".toList⟩

/-- A host that looks like a definition of the other macro, between blanks. -/
def disguisedHost : NewDefinition :=
  ⟨"HOST".toList, " #define MOTTO é ".toList⟩

def editsOfMotto (list : List NewDefinition) : List (Except Failure Bool) × Option Node :=
  let (answers, after) := edits "motto.ini".toList .latin1 list mottoWorld
  (answers, after.files.get? ["motto.ini".toList])

theorem edits_repeated_mottoText :
    (editsOfMotto [emptyMotto, disguisedHost]).1 =
        (editsOfMotto [disguisedHost, emptyMotto]).1.reverse ∧
      (editsOfMotto [emptyMotto, disguisedHost]).2 =
        (editsOfMotto [disguisedHost, emptyMotto]).2 ∧
      (editsOfMotto [emptyMotto, accentedMotto]).2 = (editsOfMotto [accentedMotto]).2 ∧
      ∃ written edited, editsOfMotto [emptyMotto, disguisedHost, accentedMotto] =
          ([.ok true, .ok true, .ok true], some (.file written)) ∧
        Encoding.latin1.decode? written = some edited ∧
        Text.lines edited = ["#define MOTTO é", " #define\tHOST a",
          "#define HOST  #define MOTTO é "].map String.toList := by
  have hsource : Encoding.latin1.decode? mottoBytes = some mottoText := by decide +kernel
  have hempty : emptyMotto.Suits .latin1 :=
    ⟨by decide, Encoding.covers_of_ascii rfl⟩
  have haccented : accentedMotto.Suits .latin1 :=
    ⟨by decide +kernel, Encoding.exists_encode?_iff.1 ⟨_, rfl⟩⟩
  have hhost : disguisedHost.Suits .latin1 :=
    ⟨by decide +kernel, Encoding.exists_encode?_iff.1 ⟨_, rfl⟩⟩
  have hsuits : ∀ edit ∈ [emptyMotto, disguisedHost, accentedMotto], edit.Suits .latin1 := by
    simp [hempty, hhost, haccented]
  obtain ⟨hpairs, hlists⟩ := edits_repeated offers_mottoWorld hsource
  obtain ⟨hanswers, hbytes⟩ := (hpairs emptyMotto disguisedHost hempty hhost).1 (by decide +kernel)
  have hlast := (hpairs emptyMotto accentedMotto hempty haccented).2 rfl
  have hlist := hlists [emptyMotto, disguisedHost, accentedMotto] (by simp) hsuits
  rw [if_neg (by decide +kernel)] at hlist
  obtain ⟨hall, written, edited, hnode, hdecoded, -, hlines⟩ := hlist
  have hfound : [emptyMotto, disguisedHost, accentedMotto].map
      (fun edit => (.ok (hasDefinition edit.name mottoText) : Except Failure Bool)) =
        [.ok true, .ok true, .ok true] := by decide +kernel
  exact ⟨hanswers, hbytes, hlast, written, edited, Prod.ext (hall.trans hfound) hnode, hdecoded,
    hlines.trans (by decide +kernel)⟩

end Session

end Keyfile
