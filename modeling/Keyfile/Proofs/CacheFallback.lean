import Keyfile.Proofs.Caching
import Keyfile.Proofs.ExitCodes
import Mathlib.Data.Option.Basic

/-!
# Falling back to a cache

What a provider is asked for is answered by its own text, else by the text of the cache file, else by
nothing. Fetching comes to this answer under conditions that are given exactly.
-/

namespace Keyfile

namespace FileTree

variable {tree : FileTree} {path source target : Path} {error : FileError}

/-- More directories are missing above a path than can be made at once. -/
def TooDeep (tree : FileTree) (path : Path) : Prop :=
  (∃ there, tree.holds path = .ok there) ∧
    (tree.makeDirectories path.parent).2 = .error .tooDeep

/-- Something stands under a path that is not a text in UTF-8. -/
def Unreadable (tree : FileTree) (path : Path) : Prop :=
  ∃ node, tree.get? path = some node ∧
    ∀ content, node = .file content → Encoding.utf8.decode? content = none

lemma eq_nameTooLong_of_holds (h : tree.holds path = .error error) : error = .nameTooLong := by
  unfold holds at h
  split at h
  · cases h
  · split at h <;> cases h
    rfl

lemma ne_nameInvalid_of_makeDirectories (h : (tree.makeDirectories path).2 = .error error) :
    error ≠ .nameInvalid := by
  rintro rfl
  unfold makeDirectories at h
  split at h
  · cases h
  · cases h
  · split at h
    · cases h
    split at h
    · cases h
    dsimp only at h
    split at h
    · cases h
    split at h
    · cases h
    dsimp only at h
    split at h <;> cases h

lemma error_of_rename {content : Bytes} (hsource : tree.get? source = some (.file content))
    (h : tree.rename source target = .error error) : error = .isDirectory ∨ error = .nameTooLong := by
  unfold rename at h
  rw [hsource] at h
  split at h
  · cases ‹some (Node.file content) = none›
  · cases h
    exact .inl rfl
  · cases ‹some (Node.file content) = some .directory›
  · cases ‹some (Node.file content) = some .directory›
  · split at h
    · cases h
    split at h
    · cases h
      exact .inr rfl
    · cases h

end FileTree

/-- A replacement without a backup fails in making directories, for want of room, or because a
directory stands in the place of the file. -/
lemma Replacement.error_of_run {tree : FileTree} {path : Path} {content : Bytes} {error : FileError}
    (h : (run ⟨path, content, none⟩ tree).2 = .error error) :
    (tree.makeDirectories path.parent).2 = .error error ∨
      (tree.makeDirectories path.parent).2 = .ok () ∧
        (error = .isDirectory ∨ error = .nameTooLong) := by
  set temporary := scratch ⟨path, content, none⟩ tree with htemporary
  have hsteps : (runSteps tree [.makeParent path, .writeTemporary temporary content,
      .install temporary path]).2 = .error error := by
    unfold run at h
    dsimp only at h
    split at h
    · cases h
    · rename_i heq
      have hresult := congrArg Prod.snd heq
      exact hresult.trans h
  rw [runSteps, ReplacementStep.apply] at hsteps
  rcases hmade : tree.makeDirectories path.parent with ⟨made, failed | _⟩ <;> rw [hmade] at hsteps
  · exact .inl hsteps
  · refine .inr ⟨rfl, ?_⟩
    dsimp only at hsteps
    split at hsteps
    · rename_i next hroom
      obtain ⟨rfl, -⟩ := Prod.mk.inj hroom
      rw [runSteps, ReplacementStep.apply] at hsteps
      dsimp only at hsteps
      rw [runSteps, ReplacementStep.apply] at hsteps
      have hsource := FileTree.get?_put made (scratch_ne_nil ⟨path, content, none⟩ tree)
        (.file content)
      cases hrename : (made.put temporary (.file content)).rename temporary path with
      | ok installed =>
        rw [hrename] at hsteps
        cases hsteps
      | error failed =>
        rw [hrename] at hsteps
        obtain rfl := Except.error.inj hsteps
        exact FileTree.error_of_rename hsource hrename
    · rename_i next failed hroom
      have hfailed := (Prod.mk.inj hroom).2
      split at hfailed
      · cases hfailed
        cases hsteps
        exact .inr rfl
      · cases hfailed

/-- A replacement fails in the way in which making the directories above its file does. -/
lemma Replacement.result_run_of_error {tree : FileTree} {path : Path} {content : Bytes}
    {error : FileError} (h : (tree.makeDirectories path.parent).2 = .error error) :
    (run ⟨path, content, none⟩ tree).2 = .error error := by
  rcases hmade : tree.makeDirectories path.parent with ⟨made, failed | _⟩ <;> rw [hmade] at h
  · obtain rfl := Except.error.inj h
    have hstep : (ReplacementStep.makeParent path).apply tree = (made, .error failed) := by
      rw [ReplacementStep.apply, hmade]
    have hsteps : runSteps tree (steps ⟨path, content, none⟩ (scratch ⟨path, content, none⟩ tree)) =
        (made, .error failed) := by
      rw [steps, List.cons_append, List.cons_append, runSteps, hstep]
    simp only [run, hsteps]
  · cases h

namespace Session

variable {world : World}

/-- Writing a text fails exactly where it is asked what is there, or where the file is replaced. -/
lemma result_writeText (path : Path) (text : Text) (world : World) :
    ((writeText path text).run.run world).1 =
      ((world.files.holds path).mapError Failure.file).bind fun _ =>
        (Replacement.run ⟨path, text.flatMap Encoding.utf8Bytes, none⟩ world.files).2.mapError
          .file := by
  have hholds : ((holds path).run.run world).1 = (world.files.holds path).mapError .file := rfl
  rw [writeText, run_bind, (looks_holds path).run_eq world, hholds]
  cases world.files.holds path with
  | error error => rfl
  | ok there =>
    simp only [Except.mapError, Except.bind, Bool.not_true, Bool.and_false, Bool.false_eq_true,
      if_false, Encoding.encode?_utf8]
    have hget : (get : Session World).run.run world = (.ok world, world) := rfl
    rw [run_bind, replaceFile, run_bind_of_ok hget]
    rcases Replacement.run ⟨path, text.flatMap Encoding.utf8Bytes, none⟩ world.files with
      ⟨files, error | _⟩ <;> rfl

/-- Nothing but the depth of the missing directories makes a text be given up that should be
written. -/
lemma isOfFiles_of_writeText {path : Path} {text : Text} {failure : Failure}
    (h : ((writeText path text).run.run world).1 = .error failure) :
    failure.isOfFiles ↔ ¬world.files.TooDeep path := by
  rw [result_writeText] at h
  cases hholds : world.files.holds path with
  | error error =>
    rw [hholds] at h
    cases h
    refine iff_of_true ?_ ?_
    · rw [FileTree.eq_nameTooLong_of_holds hholds]
      rfl
    · rintro ⟨⟨there, hthere⟩, -⟩
      rw [hholds] at hthere
      cases hthere
  | ok there =>
    rw [hholds] at h
    dsimp only [Except.mapError, Except.bind] at h
    split at h
    · rename_i error herror
      cases h
      rcases Replacement.error_of_run herror with hmade | ⟨hmade, hlast⟩
      · have hvalid := FileTree.ne_nameInvalid_of_makeDirectories hmade
        have hdeep : world.files.TooDeep path ↔ error = .tooDeep := by
          rw [FileTree.TooDeep, hholds, hmade]
          simp
        rw [hdeep]
        cases error <;> simp_all [Failure.isOfFiles]
      · refine iff_of_true ?_ ?_
        · rcases hlast with rfl | rfl <;> rfl
        · rintro ⟨-, hdeep⟩
          rw [hmade] at hdeep
          cases hdeep
    · cases h

lemma result_writeText_of_tooDeep {path : Path} (text : Text) (h : world.files.TooDeep path) :
    ((writeText path text).run.run world).1 = .error (.file .tooDeep) := by
  obtain ⟨⟨there, hthere⟩, hdeep⟩ := h
  rw [result_writeText, hthere, Replacement.result_run_of_error hdeep]
  rfl

end Session

/-- The text of a cache file, its line breaks made line feeds; none when it cannot be read as a text
in UTF-8. -/
def World.cached? (world : World) (file : Text) : Option Text := do
  let way ← Path.expandHome world.homeOf file
  guard (Path.isNameable way)
  match ← world.files.get? (Path.ofText world.directory way) with
  | .file content => (Encoding.utf8.decode? content).map Text.normalizeNewlines
  | .directory => none

lemma World.cached?_eq_some_iff {world : World} {file text : Text} :
    world.cached? file = some text ↔ ∃ way content,
      Path.expandHome world.homeOf file = some way ∧ Path.isNameable way ∧
        world.files.get? (Path.ofText world.directory way) = some (.file content) ∧
        (Encoding.utf8.decode? content).map Text.normalizeNewlines = some text := by
  rw [cached?]
  cases Path.expandHome world.homeOf file with
  | none => simp
  | some way =>
    cases hnode : world.files.get? (Path.ofText world.directory way) with
    | none => simp [hnode]
    | some node => cases node <;> simp [hnode, guard, Option.bind_eq_some_iff]

/-- A straight name is found there exactly when its text is, unless something unreadable stands
there. -/
lemma World.Straight.leadsTo_eq_cached_iff {world : World} {file : Text}
    (hname : world.Straight file) (hsound : world.files.Sound) :
    world.files.leadsTo world.directory file = .ok (world.cached? file).isSome ↔
      ¬world.files.Unreadable (Path.ofText world.directory file) := by
  have hcached : (world.cached? file).isSome = true ↔ ∃ content,
      world.files.get? (Path.ofText world.directory file) = some (.file content) ∧
        Encoding.utf8.decode? content ≠ none := by
    simp only [Option.isSome_iff_exists, cached?_eq_some_iff, hname.plain, Option.some.injEq,
      Option.map_eq_some_iff, Option.ne_none_iff_exists']
    constructor
    · rintro ⟨_, _, content, rfl, -, hnode, found, hfound, -⟩
      exact ⟨content, hnode, found, hfound⟩
    · rintro ⟨content, hnode, found, hfound⟩
      exact ⟨_, _, content, rfl, hname.nameable, hnode, found, hfound, rfl⟩
  rw [hname.leadsTo hsound, Except.ok.injEq, FileTree.contains, FileTree.Unreadable, Bool.eq_iff_iff,
    hcached]
  rcases world.files.get? (Path.ofText world.directory file) with _ | ⟨content | _⟩ <;> simp

namespace Session

variable {world : World} {file : Text}

lemma Looks.ok_bind_iff {α β : Type} {x : Session α} (h : Looks x) {f : α → Session β} {b : β} :
    ((x >>= f).run.run world).1 = .ok b ↔
      ∃ a, (x.run.run world).1 = .ok a ∧ ((f a).run.run world).1 = .ok b := by
  rw [run_bind, h.run_eq world]
  cases (x.run.run world).1 with
  | error failure => exact iff_of_false (by rintro ⟨⟩) (by rintro ⟨a, ⟨⟩, -⟩)
  | ok a => simp

lemma ok_expandHome_iff {way : Text} :
    ((expandHome file).run.run world).1 = .ok way ↔ Path.expandHome world.homeOf file = some way := by
  refine ⟨expandHome_of_result, fun h => ?_⟩
  rw [run_expandHome_eq, h]
  rfl

lemma ok_resolve_iff {path : Path} :
    ((resolve file).run.run world).1 = .ok path ↔
      ∃ way, Path.expandHome world.homeOf file = some way ∧ Path.isNameable way ∧
        Path.ofText world.directory way = path := by
  rw [resolve, (looks_expandHome file).ok_bind_iff]
  simp only [ok_expandHome_iff]
  refine exists_congr fun way => and_congr_right fun _ => ?_
  by_cases hnameable : Path.isNameable way
  · have hrun : ((do
        if Path.isNameable way then return Path.ofText (← get).directory way
        else throw (.file .nameInvalid)) : Session Path).run.run world =
          (.ok (Path.ofText world.directory way), world) := by
      rw [if_pos hnameable]
      rfl
    rw [hrun]
    simp [hnameable]
  · rw [if_neg hnameable]
    exact iff_of_false (by rintro ⟨⟩) fun h => hnameable h.1

lemma ok_readBytes_iff {path : Path} {content : Bytes} :
    ((readBytes path).run.run world).1 = .ok content ↔
      world.files.get? path = some (.file content) := by
  constructor
  · intro h
    have hread := result_readBytes h
    unfold FileTree.read at hread
    split at hread <;> cases hread
    assumption
  · intro h
    have hread : world.files.read path = .ok content := by rw [FileTree.read, h]
    change (world.files.read path).mapError Failure.file = _
    rw [hread]
    rfl

lemma ok_readText_iff {path : Path} {text : Text} :
    ((readText path).run.run world).1 = .ok text ↔ ∃ content,
      world.files.get? path = some (.file content) ∧
        (Encoding.utf8.decode? content).map Text.normalizeNewlines = some text := by
  rw [readText, (looks_readBytes path).ok_bind_iff]
  simp only [ok_readBytes_iff]
  refine exists_congr fun content => and_congr_right fun _ => ?_
  cases Encoding.utf8.decode? content with
  | none => exact iff_of_false (by rintro ⟨⟩) (by rintro ⟨⟩)
  | some found =>
    exact ⟨fun h => congrArg some (Except.ok.inj h), fun h => congrArg Except.ok (Option.some.inj h)⟩

/-- Reading the file that a name is resolved to gives the text of the cache. -/
lemma ok_cached_iff (world : World) (file text : Text) :
    ((do readText (← resolve file) : Session Text).run.run world).1 = .ok text ↔
      world.cached? file = some text := by
  rw [(looks_resolve file).ok_bind_iff, World.cached?_eq_some_iff]
  simp only [ok_resolve_iff, ok_readText_iff]
  constructor
  · rintro ⟨_, ⟨way, hway, hnameable, rfl⟩, content, hnode, hdecode⟩
    exact ⟨way, content, hway, hnameable, hnode, hdecode⟩
  · rintro ⟨way, content, hway, hnameable, hnode, hdecode⟩
    exact ⟨_, ⟨way, hway, hnameable, rfl⟩, content, hnode, hdecode⟩

end Session

namespace Provider

/-- The name of the cache file of a request, if it has one. -/
def cacheOf (request : Request) : Option Text :=
  request.cacheFile.filter (· ≠ [])

/-- What a request is to be answered with: the text of the provider, else that of the cache, else
nothing. -/
def answerOf (world : World) (request : Request) : Option Text :=
  match world.replies.head? with
  | some (.text text) => some text
  | _ => (cacheOf request).bind world.cached?

variable (world : World) (request : Request) in
/-- When a request gets the answer it is to get. -/
inductive Serves : Prop
  | uncached (h : cacheOf request = none)
  /-- The provider has a text: the name of the cache stands for a path, and not too many directories
  are missing above it. -/
  | keeps {text file way : Text} (hcache : cacheOf request = some file)
      (hreply : world.replies.head? = some (.text text))
      (hway : Path.expandHome world.homeOf file = some way) (hnameable : Path.isNameable way)
      (hdepth : ¬world.files.TooDeep (Path.ofText world.directory way))
  /-- The provider has none: the name of the cache leads to something exactly when a text can be read
  there. -/
  | reads {file way : Text} (hcache : cacheOf request = some file)
      (hreply : ∀ text, world.replies.head? ≠ some (.text text))
      (hway : Path.expandHome world.homeOf file = some way)
      (hleads : world.files.leadsTo world.directory way = .ok (world.cached? file).isSome)

variable {world : World} {request : Request} {file text : Text}

lemma run_ask (request : Request) (world : World) : (ask request).run.run world =
    (.ok (world.replies.head?.getD .nothing), world.hearing request) :=
  rfl

lemma answerOf_of_text (hreply : world.replies.head? = some (.text text)) :
    answerOf world request = some text := by
  rw [answerOf, hreply]

lemma answerOf_of_none (hreply : ∀ text, world.replies.head? ≠ some (.text text)) :
    answerOf world request = (cacheOf request).bind world.cached? := by
  rw [answerOf]
  split
  · exact absurd ‹_› (hreply _)
  · rfl

/-- When the provider has a text, that is what fetching gives once the cache is taken care of. -/
lemma result_fetch_of_text (hreply : world.replies.head? = some (.text text)) :
    ((fetch request).run.run world).1 = (((do
      match cacheOf request with
      | none => return some text
      | some file =>
        keep (← Session.resolve file) text
        return some text) : Session (Option Text)).run.run (world.hearing request)).1 := by
  have hask : (ask request).run.run world = (.ok (.text text), world.hearing request) := by
    rw [run_ask, hreply]
    rfl
  rw [fetch, Session.run_bind_of_ok hask, cacheOf]
  cases request.cacheFile.filter (· ≠ []) <;> rfl

/-- When the provider has none, the cache is asked for. -/
lemma result_fetch_of_none (hreply : ∀ text, world.replies.head? ≠ some (.text text)) :
    ((fetch request).run.run world).1 = (((do
      match cacheOf request with
      | none => return none
      | some file =>
        if ← Session.isThere file then return some (← Session.readText (← Session.resolve file))
        else return none) : Session (Option Text)).run.run (world.hearing request)).1 := by
  rw [fetch, Session.run_bind_of_ok (run_ask request world), cacheOf]
  rcases hreplies : world.replies.head? with _ | reply
  · cases request.cacheFile.filter (· ≠ []) <;> rfl
  · cases reply with
    | text text => exact absurd hreplies (hreply text)
    | nothing | failure => cases request.cacheFile.filter (· ≠ []) <;> rfl

/-- A text is kept, or let be, unless too many directories are missing. -/
lemma ok_keep_iff (world : World) (cache : Path) (text : Text) :
    ((keep cache text).run.run world).1 = .ok () ↔ ¬world.files.TooDeep cache := by
  rw [keep, Session.run_bind, Session.run_attempt]
  rcases hwrite : (Session.writeText cache text).run.run world with ⟨failure | _, after⟩
  · have hfailed : ((Session.writeText cache text).run.run world).1 = .error failure := by
      rw [hwrite]
    rw [← Session.isOfFiles_of_writeText hfailed]
    by_cases hof : failure.isOfFiles = true
    · exact iff_of_true (by simp [hof]; rfl) hof
    · exact iff_of_false (by simp [hof]) hof
  · refine iff_of_true rfl fun hdeep => ?_
    have hfailed := Session.result_writeText_of_tooDeep text hdeep
    rw [hwrite] at hfailed
    cases hfailed

/-- A text of the provider is the answer when the cache has a path above which not too many
directories are missing, whether or not the cache can be written. -/
lemma ok_fetch_text_iff (hcache : cacheOf request = some file)
    (hreply : world.replies.head? = some (.text text)) :
    ((fetch request).run.run world).1 = .ok (some text) ↔
      ∃ way, Path.expandHome world.homeOf file = some way ∧ Path.isNameable way ∧
        ¬world.files.TooDeep (Path.ofText world.directory way) := by
  rw [result_fetch_of_text hreply, hcache]
  dsimp only
  rw [(Session.looks_resolve file).ok_bind_iff]
  have hkept (path : Path) : ((do keep path text; return some text :
      Session (Option Text)).run.run (world.hearing request)).1 = .ok (some text) ↔
        ¬world.files.TooDeep path := by
    have hkeep := ok_keep_iff (world.hearing request) path text
    rw [Session.run_bind]
    rcases hrun : (keep path text).run.run (world.hearing request) with ⟨failure | _, after⟩
    · rw [hrun] at hkeep
      exact iff_of_false (by rintro ⟨⟩) fun h => by cases hkeep.2 h
    · rw [hrun] at hkeep
      exact iff_of_true rfl (hkeep.1 rfl)
  simp only [Session.ok_resolve_iff, hkept]
  constructor
  · rintro ⟨_, ⟨way, hway, hnameable, rfl⟩, hdepth⟩
    exact ⟨way, hway, hnameable, hdepth⟩
  · rintro ⟨way, hway, hnameable, hdepth⟩
    exact ⟨_, ⟨way, hway, hnameable, rfl⟩, hdepth⟩

/-- A cache is read as what it holds, if there is a text in it. -/
lemma ok_readCache_iff (world : World) (request : Request) (file : Text) :
    ((do return some (← Session.readText (← Session.resolve file)) :
      Session (Option Text)).run.run (world.hearing request)).1 = .ok (world.cached? file) ↔
        (world.cached? file).isSome = true := by
  have hcached (text : Text) := Session.ok_cached_iff (world.hearing request) file text
  simp only [(Session.looks_resolve file).ok_bind_iff] at hcached
  rw [(Session.looks_resolve file).ok_bind_iff, Option.isSome_iff_exists]
  simp only [(Session.looks_readText _ .utf8).ok_bind_iff]
  constructor
  · rintro ⟨path, -, text, -, hanswer⟩
    exact ⟨text, (Except.ok.inj hanswer).symm⟩
  · rintro ⟨text, hanswer⟩
    obtain ⟨path, hpath, htext⟩ := (hcached text).2 hanswer
    exact ⟨path, hpath, text, htext, congrArg Except.ok hanswer.symm⟩

/-- Without a text of the provider it is asked whether the cache is there, and if so it is read. -/
lemma ok_fetch_cached_iff (hcache : cacheOf request = some file)
    (hreply : ∀ text, world.replies.head? ≠ some (.text text)) :
    ((fetch request).run.run world).1 = .ok (world.cached? file) ↔
      ∃ way, Path.expandHome world.homeOf file = some way ∧
        world.files.leadsTo world.directory way = .ok (world.cached? file).isSome := by
  rw [result_fetch_of_none hreply, hcache]
  dsimp only
  rw [(Session.looks_isThere file).ok_bind_iff]
  have hthere (there : Bool) :
      ((Session.isThere file).run.run (world.hearing request)).1 = .ok there ↔
        ∃ way, Path.expandHome world.homeOf file = some way ∧
          world.files.leadsTo world.directory way = .ok there := by
    rw [Session.isThere, (Session.looks_expandHome file).ok_bind_iff]
    simp only [Session.ok_expandHome_iff]
    refine exists_congr fun way => and_congr_right fun _ => ?_
    change (world.files.leadsTo world.directory way).mapError Failure.file = _ ↔ _
    cases world.files.leadsTo world.directory way <;> simp [Except.mapError]
  have hanswer (there : Bool) : ((if there then
        (do return some (← Session.readText (← Session.resolve file)))
      else return none : Session (Option Text)).run.run (world.hearing request)).1 =
        .ok (world.cached? file) ↔ there = (world.cached? file).isSome := by
    cases there with
    | false =>
      have hnothing : (Except.ok none : Except Failure (Option Text)) = .ok (world.cached? file) ↔
          false = (world.cached? file).isSome := by
        cases world.cached? file <;> simp
      exact hnothing
    | true => exact (ok_readCache_iff world request file).trans eq_comm
  simp only [hthere, hanswer]
  constructor
  · rintro ⟨_, ⟨way, hway, hleads⟩, rfl⟩
    exact ⟨way, hway, hleads⟩
  · rintro ⟨way, hway, hleads⟩
    exact ⟨_, ⟨way, hway, hleads⟩, rfl⟩

lemma ok_fetch_answerOf_iff (request : Request) (world : World) :
    ((fetch request).run.run world).1 = .ok (answerOf world request) ↔ Serves world request := by
  rcases hcache : cacheOf request with _ | file
  · refine iff_of_true ?_ (.uncached hcache)
    by_cases hreply : ∃ text, world.replies.head? = some (.text text)
    · obtain ⟨text, hreply⟩ := hreply
      rw [result_fetch_of_text hreply, answerOf_of_text hreply, hcache]
      rfl
    · rw [not_exists] at hreply
      rw [result_fetch_of_none hreply, answerOf_of_none hreply, hcache]
      rfl
  by_cases hreply : ∃ text, world.replies.head? = some (.text text)
  · obtain ⟨text, hreply⟩ := hreply
    rw [answerOf_of_text hreply, ok_fetch_text_iff hcache hreply]
    constructor
    · rintro ⟨way, hway, hnameable, hdepth⟩
      exact .keeps hcache hreply hway hnameable hdepth
    · rintro (hnone | ⟨hsome, -, hway, hnameable, hdepth⟩ | ⟨-, hnothing, -, -⟩)
      · rw [hcache] at hnone
        cases hnone
      · rw [hcache] at hsome
        cases hsome
        exact ⟨_, hway, hnameable, hdepth⟩
      · exact absurd hreply (hnothing text)
  · rw [not_exists] at hreply
    rw [answerOf_of_none hreply, hcache, Option.bind_some, ok_fetch_cached_iff hcache hreply]
    constructor
    · rintro ⟨way, hway, hleads⟩
      exact .reads hcache hreply hway hleads
    · rintro (hnone | ⟨-, hsome, -, -⟩ | ⟨hsome, -, hway, hleads⟩)
      · rw [hcache] at hnone
        cases hnone
      · exact absurd hsome (hreply _)
      · rw [hcache] at hsome
        cases hsome
        exact ⟨_, hway, hleads⟩

/-- A cache with a straight name serves for keeping a text unless too many directories are missing,
and for reading one unless something that is not a text in UTF-8 stands there. -/
lemma serves_iff_of_straight (hcache : cacheOf request = some file) (hname : world.Straight file)
    (hsound : world.files.Sound) :
    Serves world request ↔
      ((∃ text, world.replies.head? = some (.text text)) →
        ¬world.files.TooDeep (Path.ofText world.directory file)) ∧
      ((∀ text, world.replies.head? ≠ some (.text text)) →
        ¬world.files.Unreadable (Path.ofText world.directory file)) := by
  have hleads := hname.leadsTo_eq_cached_iff hsound
  constructor
  · rintro (hnone | ⟨hsome, hreply, hway, -, hdepth⟩ | ⟨hsome, hreply, hway, hfound⟩)
    · rw [hcache] at hnone
      cases hnone
    · rw [hcache] at hsome
      cases hsome
      rw [hname.plain] at hway
      cases hway
      exact ⟨fun _ => hdepth, fun hnothing => absurd hreply (hnothing _)⟩
    · rw [hcache] at hsome
      cases hsome
      rw [hname.plain] at hway
      cases hway
      exact ⟨fun ⟨text, htext⟩ => absurd htext (hreply text), fun _ => hleads.1 hfound⟩
  · rintro ⟨htext, hnothing⟩
    by_cases hreply : ∃ text, world.replies.head? = some (.text text)
    · have hdepth := htext hreply
      obtain ⟨text, hreply⟩ := hreply
      exact .keeps hcache hreply hname.plain hname.nameable hdepth
    · rw [not_exists] at hreply
      exact .reads hcache hreply hname.plain (hleads.2 (hnothing hreply))

/-- A request gets the answer that it is to get exactly under these conditions; else fetching fails,
or overlooks a cache that could be read. -/
theorem fetch_answers_iff (request : Request) (world : World) :
    (((fetch request).run.run world).1 = .ok (answerOf world request) ↔ Serves world request) ∧
    ∀ file, cacheOf request = some file → world.Straight file → world.files.Sound →
      (Serves world request ↔
        ((∃ text, world.replies.head? = some (.text text)) →
          ¬world.files.TooDeep (Path.ofText world.directory file)) ∧
        ((∀ text, world.replies.head? ≠ some (.text text)) →
          ¬world.files.Unreadable (Path.ofText world.directory file))) := by
  refine ⟨ok_fetch_answerOf_iff request world, fun file hcache hname hsound => ?_⟩
  exact serves_iff_of_straight hcache hname hsound

/-- A world in which a provider fails, and whose only file is a cache. -/
def failingWorld (cache : Bytes) : World :=
  { (default : World) with files := ⟨[(["c.ini".toList], .file cache)]⟩, replies := [.failure] }

/-- A cache with a text in it takes the place of a provider that fails. -/
theorem fetch_answers_failingWorld :
    ((fetch { cacheFile := some "c.ini".toList }).run.run
        (failingWorld (Encoding.utf8Bytes 'k'))).1 =
      .ok (answerOf (failingWorld (Encoding.utf8Bytes 'k')) { cacheFile := some "c.ini".toList }) ∧
    answerOf (failingWorld (Encoding.utf8Bytes 'k')) { cacheFile := some "c.ini".toList } =
      some ['k'] := by
  have hstraight : (failingWorld (Encoding.utf8Bytes 'k')).Straight "c.ini".toList :=
    ⟨by decide, by rfl, by decide, by decide, by decide⟩
  have hsound : (failingWorld (Encoding.utf8Bytes 'k')).files.Sound :=
    FileTree.sound_of_ancestors (by decide +kernel)
  obtain ⟨hserves, hcache⟩ := fetch_answers_iff { cacheFile := some "c.ini".toList }
    (failingWorld (Encoding.utf8Bytes 'k'))
  refine ⟨hserves.2 ((hcache _ rfl hstraight hsound).2 ⟨?_, ?_⟩), by decide +kernel⟩
  · rintro ⟨text, ⟨⟩⟩
  · rintro - ⟨node, hnode, hunreadable⟩
    obtain rfl : Node.file (Encoding.utf8Bytes 'k') = node := Option.some.inj hnode
    exact absurd (hunreadable _ rfl) (by decide +kernel)

/-- A cache that is no text is not let be: fetching fails, where nothing is to be answered. -/
theorem fetch_unreadableCache :
    ((fetch { cacheFile := some "c.ini".toList }).run.run (failingWorld [0xff])).1 =
      .error .undecodable ∧
    answerOf (failingWorld [0xff]) { cacheFile := some "c.ini".toList } = none := by
  decide +kernel

end Provider

end Keyfile
