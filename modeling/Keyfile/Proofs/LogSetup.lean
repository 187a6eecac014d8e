import Keyfile.Command.Execution
import Keyfile.Proofs.ContextAgreement
import Keyfile.Proofs.Writing

/-!
# Setting up the journal

Before its command is carried out, an invocation sets up the journal. That goes well exactly when
the level has a name and the file for records, if one is wanted, has a handler already or can be
opened for appending. It never changes another file: directories are made on the way to the file
for records, the file is made when it is missing, and logging goes on keeping away from all other
places.
-/

namespace Keyfile

namespace Session

variable {α β : Type} {x : Session α} {f : α → Session β} {world after : World}

lemma ofExcept_ok_bind {ε : Type} (failure : ε → Failure) (a : α) (f : α → Session β) :
    ofExcept failure (.ok a) >>= f = f a :=
  rfl

/-- A session that ends with a result. -/
def Succeeds (x : Session α) (world : World) : Prop :=
  ∃ a, (x.run.run world).1 = .ok a

lemma succeeds_pure (a : α) (world : World) : Succeeds (pure a) world :=
  ⟨a, rfl⟩

lemma not_succeeds_of_error {failure : Failure} (h : x.run.run world = (.error failure, after)) :
    ¬x.Succeeds world := by
  rintro ⟨a, ha⟩
  rw [h] at ha
  cases ha

lemma not_succeeds_bind_of_error {failure : Failure}
    (h : x.run.run world = (.error failure, after)) : ¬(x >>= f).Succeeds world := by
  apply not_succeeds_of_error
  rw [run_bind, h]

lemma succeeds_bind_iff_of_ok {a : α} (h : x.run.run world = (.ok a, after)) :
    (x >>= f).Succeeds world ↔ (f a).Succeeds after := by
  rw [Succeeds, Succeeds, run_bind_of_ok h]

/-- What always succeeds does not count. -/
lemma succeeds_bind_iff_of_always (h : ∀ a after, (f a).Succeeds after) :
    (x >>= f).Succeeds world ↔ x.Succeeds world := by
  rcases hrun : x.run.run world with ⟨failure | a, after⟩
  · exact iff_of_false (not_succeeds_bind_of_error hrun) (not_succeeds_of_error hrun)
  · exact iff_of_true ((succeeds_bind_iff_of_ok hrun).2 (h a after)) ⟨a, by rw [hrun]⟩

/-- What follows a session that looks at the world succeeds in the same world. -/
lemma Looks.succeeds_bind_iff (h : Looks x) :
    (x >>= f).Succeeds world ↔
      ∃ a, (x.run.run world).1 = .ok a ∧ (f a).Succeeds world := by
  have hrun := h.run_eq world
  cases hresult : (x.run.run world).1 with
  | error failure =>
    rw [hresult] at hrun
    simp [not_succeeds_bind_of_error hrun]
  | ok a =>
    rw [hresult] at hrun
    simp [succeeds_bind_iff_of_ok hrun]

end Session

namespace FileTree

variable {tree opened : FileTree} {path place : Path}

/-- A path whose file can be opened for appending: the directories above it can be made, no
directory stands under it, and it is not too long for a new file. -/
structure Appendable (tree : FileTree) (path : Path) : Prop where
  parent : (tree.makeDirectories path.parent).2 = .ok ()
  free : tree.get? path ≠ some .directory
  short : tree.get? path = none → isTooLong path = false

lemma openFile_append_iff (tree : FileTree) (path : Path) :
    (∃ opened, Log.Mode.append.openFile tree path = .ok opened) ↔
      tree.get? path ≠ some .directory ∧ (tree.get? path = none → isTooLong path = false) := by
  cases hthere : tree.get? path with
  | none =>
    cases hlong : isTooLong path with
    | false => simp [Log.Mode.openFile, hthere, hlong]
    | true => simp [Log.Mode.openFile, hthere, hlong]
  | some node =>
    cases node with
    | directory => simp [Log.Mode.openFile, hthere]
    | file content => simp [Log.Mode.openFile, hthere]

/-- Making the directories above a path leaves what stands under it. -/
lemma get?_makeDirectories_parent (tree : FileTree) (path : Path) :
    (tree.makeDirectories path.parent).1.get? path = tree.get? path := by
  rcases eq_or_ne path [] with rfl | hpath
  · rw [get?, get?, if_pos rfl, if_pos rfl]
  · have hpos := List.length_pos_iff.2 hpath
    apply get?_makeDirectories
    rw [Path.parent, List.length_dropLast]
    omega

/-- A path is appendable when the directories above it can be made and its file can then be
opened. -/
lemma appendable_iff (tree : FileTree) (path : Path) :
    tree.Appendable path ↔ (tree.makeDirectories path.parent).2 = .ok () ∧ ∃ opened,
      Log.Mode.append.openFile (tree.makeDirectories path.parent).1 path = .ok opened := by
  rw [openFile_append_iff, get?_makeDirectories_parent]
  exact ⟨fun h => ⟨h.parent, h.free, h.short⟩, fun h => ⟨h.1, h.2.1, h.2.2⟩⟩

lemma get?_openFile_append (h : Log.Mode.append.openFile tree path = .ok opened)
    (hplace : place ≠ path) : opened.get? place = tree.get? place :=
  Log.Output.get?_of_openFile hplace h

end FileTree

lemma Log.Streams.Avoids.add {streams : Streams} {path own : Path} (h : streams.Avoids path)
    (hne : path ≠ own) {mode : Mode} {position : Nat} :
    (streams.add ⟨.path own, mode, position⟩).1.Avoids path := by
  intro number stream hstream hplace
  have hnumber : (streams.streams ++ [some ⟨.path own, mode, position⟩])[number]?.join =
    some stream := hstream
  rw [List.getElem?_append] at hnumber
  split at hnumber
  · exact h number stream hnumber hplace
  · rw [List.getElem?_singleton] at hnumber
    split at hnumber
    · cases hnumber
      exact hne (Place.path.inj hplace).symm
    · cases hnumber

namespace World

variable {places : Path → Prop} {world : World}

/-- No handler of any logger touches one of some places, and no stream is open on one. -/
structure Unlogged (places : Path → Prop) (world : World) : Prop where
  handlers : ∀ logger ∈ world.loggers, ∀ handler ∈ logger.handlers, ∀ place, places place →
    ¬handler.target.Touches place
  streams : ∀ place, places place → world.streams.Avoids place

lemma SameSetting.result_resolve {other : World} (h : world.SameSetting other) (name : Text) :
    ((Session.resolve name).run.run world).1 = ((Session.resolve name).run.run other).1 :=
  (Session.agree_resolve (fun _ _ h => h) name _ _ h).1

lemma unlogged_of_silent (hloggers : world.loggers = []) (hstreams : world.streams = {}) :
    world.Unlogged places := by
  constructor
  · rw [hloggers]
    rintro logger ⟨⟩
  · exact (undisturbed_of_silent hloggers hstreams).streams

end World

namespace Log.Loggers

variable {loggers : Loggers} {logger other : Logger} {handler : Handler}

lemma mem_of_find? {name : Text} (h : loggers.find? name = some logger) : logger ∈ loggers :=
  List.mem_of_find?_eq_some h

lemma mem_of_mem_put (h : other ∈ loggers.put logger) : other = logger ∨ other ∈ loggers := by
  unfold put at h
  split at h
  · obtain ⟨before, hbefore, rfl⟩ := List.mem_map.1 h
    split
    · exact .inl rfl
    · exact .inr hbefore
  · rcases List.mem_append.1 h with h | h
    · exact .inr h
    · exact .inl (List.mem_singleton.1 h)

lemma exists_of_mem_handlersOf {lineage : List Logger} (h : handler ∈ handlersOf lineage) :
    ∃ logger ∈ lineage, handler ∈ logger.handlers := by
  induction lineage with
  | nil => cases h
  | cons logger rest ih =>
    rw [handlersOf, List.mem_append] at h
    rcases h with h | h
    · exact ⟨logger, List.mem_cons_self, h⟩
    · split at h
      · obtain ⟨other, hother, hhandler⟩ := ih h
        exact ⟨other, List.mem_cons_of_mem _ hother, hhandler⟩
      · cases h

/-- The handlers that take a record are those of loggers. -/
lemma exists_of_mem_handlersFor {record : Record} (h : handler ∈ loggers.handlersFor record) :
    ∃ logger ∈ loggers, handler ∈ logger.handlers := by
  unfold handlersFor at h
  split at h
  · cases h
  · obtain ⟨logger, hlogger, hhandler⟩ := exists_of_mem_handlersOf (List.mem_filter.1 h).1
    obtain ⟨name, -, hfound⟩ := List.mem_filterMap.1 hlogger
    exact ⟨logger, mem_of_find? hfound, hhandler⟩

end Log.Loggers

namespace World

variable {places : Path → Prop} {world : World}

lemma Unlogged.undisturbed (h : world.Unlogged places) : world.Undisturbed places where
  handlers event handler hhandler := by
    obtain ⟨logger, hlogger, hown⟩ := Log.Loggers.exists_of_mem_handlersFor hhandler
    exact h.handlers logger hlogger handler hown
  streams := h.streams

end World

namespace Log

variable {loggers : Loggers} {path : Path} {name : Text}

/-- Whether the logger of a name has a handler for the file of a path. -/
def Loggers.writesTo (loggers : Loggers) (name : Text) (path : Path) : Bool :=
  match loggers.find? name with
  | some logger => logger.handlers.any (·.path? == some path)
  | none => false

/-- The logger of a name as it is when it is asked for, with a handler at least. -/
def Loggers.obtained (loggers : Loggers) (name : Text) : Logger :=
  let logger := (loggers.find? name).getD { name }
  if logger.handlers = [] then
    { logger with handlers := [{ target := .console, layout := .short }], level := warningLevel }
  else logger

/-- A handler of a logger that was asked for was there before or is one of the console. -/
lemma Loggers.mem_or_console {handler : Handler} (h : handler ∈ (loggers.obtained name).handlers) :
    (∃ logger ∈ loggers, handler ∈ logger.handlers) ∨ handler.target = .console := by
  unfold obtained at h
  dsimp only at h
  split at h
  · obtain rfl := List.mem_singleton.1 h
    exact .inr rfl
  · cases hfound : loggers.find? name with
    | none =>
      rw [hfound] at h
      cases h
    | some logger =>
      rw [hfound] at h
      exact .inl ⟨logger, mem_of_find? hfound, h⟩

lemma Loggers.any_path?_obtained (loggers : Loggers) (name : Text) (path : Path) :
    (loggers.obtained name).handlers.any (·.path? == some path) = loggers.writesTo name path := by
  unfold obtained writesTo
  dsimp only
  cases loggers.find? name with
  | none => rfl
  | some logger =>
    dsimp only [Option.getD_some]
    split
    · rename_i hnone
      rw [hnone]
      rfl
    · rfl

lemma target_configureConsole (level : Int) (layout : Layout) (handler : Handler) :
    (configureConsole level layout handler).target = handler.target := by
  unfold configureConsole
  split <;> rfl

lemma path?_configureConsole (level : Int) (layout : Layout) (handler : Handler) :
    (configureConsole level layout handler).path? = handler.path? := by
  rw [Handler.path?, Handler.path?, target_configureConsole]

variable {options : Options} {level : Int} {file : Text} {logger : Logger} {world : World}

lemma run_openStream_of_ok {path : Path} {mode : Mode} {files : FileTree}
    (h : mode.openFile world.files path = .ok files) :
    (openStream path mode).run.run world = (.ok (world.streams.add ⟨.path path, mode, 0⟩).2,
      { world with files, streams := (world.streams.add ⟨.path path, mode, 0⟩).1 }) := by
  have hget : (get : Session World).run.run world = (.ok world, world) := rfl
  rw [openStream, Session.run_bind_of_ok hget, h]
  rfl

lemma run_openStream_of_error {path : Path} {mode : Mode} {error : FileError}
    (h : mode.openFile world.files path = .error error) :
    (openStream path mode).run.run world = (.error (.file error), world) := by
  have hget : (get : Session World).run.run world = (.ok world, world) := rfl
  rw [openStream, Session.run_bind_of_ok hget, h]
  rfl

lemma run_makeDirectories (path : Path) (world : World) :
    (Session.makeDirectories path).run.run world =
      ((world.files.makeDirectories path).2.mapError .file,
        { world with files := (world.files.makeDirectories path).1 }) :=
  rfl

/-- A logger gets a handler for a file when the name of the file stands for a path, and the path has
a handler already or its file can be opened for appending. -/
lemma succeeds_withFile_iff (hmode : options.openMode = .ok .append) :
    (withFile options level file logger).Succeeds world ↔
      ∃ path, ((Session.resolve file).run.run world).1 = .ok path ∧
        (logger.handlers.any (·.path? == some path) ∨ world.files.Appendable path) := by
  unfold withFile
  rw [(Session.looks_resolve file).succeeds_bind_iff]
  refine exists_congr fun path => and_congr_right fun _ => ?_
  by_cases hthere : logger.handlers.any (·.path? == some path) = true
  · rw [if_pos hthere]
    exact iff_of_true (Session.succeeds_pure _ _) (.inl hthere)
  rw [if_neg hthere, or_iff_right hthere, FileTree.appendable_iff, hmode]
  have hdirectories := run_makeDirectories path.parent world
  rcases hmade : world.files.makeDirectories path.parent with ⟨made, error | _⟩ <;>
    rw [hmade] at hdirectories
  · refine iff_of_false (Session.not_succeeds_bind_of_error hdirectories) ?_
    rintro ⟨⟨⟩, -⟩
  · have hmode : (Session.ofExcept id (.ok Mode.append)).run.run { world with files := made } =
        (.ok .append, { world with files := made }) := rfl
    set next : World := { world with files := made }
    rw [Session.succeeds_bind_iff_of_ok hdirectories, Session.succeeds_bind_iff_of_ok hmode]
    dsimp only
    cases hopened : Mode.append.openFile next.files path with
    | error error =>
      have hopen := run_openStream_of_error hopened
      refine iff_of_false (Session.not_succeeds_bind_of_error hopen) ?_
      rintro ⟨-, opened, ⟨⟩⟩
    | ok opened =>
      rw [Session.succeeds_bind_iff_of_ok (run_openStream_of_ok hopened)]
      exact iff_of_true (Session.succeeds_pure _ _) ⟨rfl, opened, rfl⟩

/-- The name of the file for records, none when it is empty. -/
def Options.fileName? (options : Options) : Option Text :=
  match options.file with
  | some [] => none
  | file => file

/-- The logger that is configured, with the console's handlers set. -/
def Options.configured (options : Options) (level : Int) (loggers : Loggers) : Logger :=
  let logger := loggers.obtained options.name
  { logger with
    level := if options.fileName?.isSome then min level level else level
    propagates := options.propagates
    handlers := logger.handlers.map (configureConsole level options.layout) }

/-- The world in which a logger was configured. -/
def Options.configuring (options : Options) (level : Int) (world : World) : World :=
  { world with
    loggers := (world.loggers.put (world.loggers.obtained options.name)).put
      (options.configured level world.loggers) }

/-- What is left to do then: the file for records gets a handler, if there is to be one. -/
def Options.finish (options : Options) (level : Int) (logger : Logger) : Session Logger :=
  match options.fileName? with
  | none => return logger
  | some file => do
    let logger ← withFile options level file logger
    modify fun world => { world with loggers := world.loggers.put logger }
    return logger

lemma configure_of_unknown {text : Text} (hlevel : options.consoleLevel.resolve = .error text)
    (world : World) : (configure options).run.run world =
      (.error (.levelUnknown "console_level".toList text), world) := by
  unfold configure
  rw [resolveLevel, hlevel]
  rfl

lemma configure_of_level (hlevel : options.consoleLevel.resolve = .ok level)
    (hfile : options.fileLevel = none) (world : World) :
    (configure options).run.run world =
      (options.finish level (options.configured level world.loggers)).run.run
        (options.configuring level world) := by
  unfold configure
  have hconsole : resolveLevel "console_level".toList options.consoleLevel = .ok level := by
    rw [resolveLevel, hlevel]
    rfl
  rw [hconsole, hfile]
  rfl

lemma Options.sameSetting_configuring (options : Options) (level : Int) (world : World) :
    (options.configuring level world).SameSetting world :=
  ⟨rfl, rfl, rfl, rfl⟩

lemma any_path?_configured (options : Options) (level : Int) (loggers : Loggers) (path : Path) :
    (options.configured level loggers).handlers.any (·.path? == some path) =
      loggers.writesTo options.name path := by
  rw [← Loggers.any_path?_obtained, Options.configured, List.any_map]
  congr 1
  funext handler
  exact congrArg (· == some path) (path?_configureConsole level options.layout handler)

/-- A file for records can be had: its name stands for a path that has a handler already, or whose
file can be opened for appending. -/
def Options.FileUsable (options : Options) (world : World) (file : Text) : Prop :=
  ∃ path, ((Session.resolve file).run.run world).1 = .ok path ∧
    (world.loggers.writesTo options.name path ∨ world.files.Appendable path)

/-- A logger is configured exactly when the level has a name and the file for records, if one is
named, can be had. -/
lemma succeeds_configure_iff (hfile : options.fileLevel = none)
    (hmode : options.openMode = .ok .append) (world : World) :
    (configure options).Succeeds world ↔ (∃ level, options.consoleLevel.resolve = .ok level) ∧
      ∀ file, options.fileName? = some file → options.FileUsable world file := by
  cases hlevel : options.consoleLevel.resolve with
  | error text =>
    simp [Session.not_succeeds_of_error (configure_of_unknown hlevel world)]
  | ok level =>
    rw [Session.Succeeds, configure_of_level hlevel hfile, ← Session.Succeeds, Options.finish]
    cases hname : options.fileName? with
    | none => simp [Session.succeeds_pure]
    | some file =>
      dsimp only
      rw [Session.succeeds_bind_iff_of_always fun logger after => ⟨logger, rfl⟩,
        succeeds_withFile_iff hmode]
      simp only [any_path?_configured, Except.ok.injEq, exists_eq', true_and, Option.some.injEq,
        forall_eq']
      rw [Options.FileUsable, ← (options.sameSetting_configuring level world).result_resolve file]
      exact Iff.rfl

/-- The handlers of a logger keep away from some places. -/
def Logger.Spares (logger : Logger) (places : Path → Prop) : Prop :=
  ∀ handler ∈ logger.handlers, ∀ place, places place → ¬handler.target.Touches place

end Log

/-- What is left alone while the journal is set up: the setting and the files of some places, from
which logging keeps away. Directories can be made in these places, but not where there is nothing
but such places below. -/
structure World.Prepared (places : Path → Prop) (before world : World) : Prop
    extends SameSetting world before where
  unlogged : world.Unlogged places
  same : ∀ place, places place → before.files.SameFile world.files place
  node : ∀ own, (∀ below, places (own ++ below)) →
    world.files.get? own = before.files.get? own

namespace World.Prepared

variable {places : Path → Prop} {before world : World} {logger : Log.Logger} {path : Path}

lemma put (h : Prepared places before world) (hlogger : logger.Spares places) :
    Prepared places before { world with loggers := world.loggers.put logger } where
  toSameSetting := ⟨h.machine, h.processEnvironment, h.directory, h.registry⟩
  same := h.same
  node := h.node
  unlogged := by
    refine ⟨fun other hother => ?_, h.unlogged.streams⟩
    rcases Log.Loggers.mem_of_mem_put hother with rfl | hbefore
    · exact hlogger
    · exact h.unlogged.handlers other hbefore

lemma made (h : Prepared places before world) (hpath : ¬places path) :
    Prepared places before
      { world with files := (world.files.makeDirectories path.parent).1 } where
  toSameSetting := ⟨h.machine, h.processEnvironment, h.directory, h.registry⟩
  unlogged := ⟨h.unlogged.handlers, h.unlogged.streams⟩
  same place hplace := (h.same place hplace).trans (FileTree.sameFile_makeDirectories _ _ _)
  node own hown := by
    rw [← h.node own hown]
    apply FileTree.get?_makeDirectories_of_apart
    -- a directory on the way would have the file for records below it
    intro hprefix
    obtain ⟨below, hbelow⟩ := hprefix.trans (List.dropLast_prefix path)
    exact hpath (hbelow ▸ hown below)

lemma opened (h : Prepared places before world) (hpath : ¬places path) {files : FileTree}
    (hfiles : Log.Mode.append.openFile world.files path = .ok files) :
    Prepared places before
      { world with files, streams := (world.streams.add ⟨.path path, .append, 0⟩).1 } := by
  have hsame : ∀ place, places place → files.get? place = world.files.get? place := by
    intro place hplace
    apply FileTree.get?_openFile_append hfiles
    rintro rfl
    exact hpath hplace
  refine ⟨⟨h.machine, h.processEnvironment, h.directory, h.registry⟩, ?_, ?_, ?_⟩
  · refine ⟨h.unlogged.handlers, fun place hplace => ?_⟩
    apply (h.unlogged.streams place hplace).add
    rintro rfl
    exact hpath hplace
  · exact fun place hplace => (h.same place hplace).trans (.of_eq (hsame place hplace))
  · intro own hown
    have hplace := hown []
    rw [List.append_nil] at hplace
    rw [← h.node own hown]
    exact hsame own hplace

end World.Prepared

namespace Log

variable {options : Options} {level : Int} {file : Text} {logger : Logger} {before world : World}
  {places : Path → Prop}

lemma Loggers.spares_obtained (h : world.Unlogged places) (name : Text) :
    (world.loggers.obtained name).Spares places := by
  intro handler hhandler
  rcases mem_or_console hhandler with ⟨logger, hlogger, hown⟩ | hconsole
  · exact h.handlers logger hlogger handler hown
  · rw [hconsole]
    rintro place - ⟨⟩

lemma Options.spares_configured (h : world.Unlogged places) (options : Options) (level : Int) :
    (options.configured level world.loggers).Spares places := by
  intro handler hhandler
  obtain ⟨before, hbefore, rfl⟩ := List.mem_map.1 hhandler
  rw [target_configureConsole]
  exact Loggers.spares_obtained h options.name before hbefore

/-- A handler for a file leaves all other places alone. -/
lemma ends_withFile (hmode : options.openMode = .ok .append) (hrotates : options.rotates = false)
    (hplaces : ∀ path, ((Session.resolve file).run.run world).1 = .ok path → ¬places path)
    (hworld : World.Prepared places before world) (hlogger : logger.Spares places) :
    (withFile options level file logger).Ends world fun result after =>
      World.Prepared places before after ∧ ∀ other, result = .ok other → other.Spares places := by
  unfold withFile
  apply (Session.looks_resolve file).ends_bind
  swap
  · rintro failure
    exact ⟨hworld, fun other hother => by cases hother⟩
  intro path hpath
  have hpath := hplaces path hpath
  by_cases hthere : logger.handlers.any (·.path? == some path) = true
  · rw [if_pos hthere]
    refine ⟨hworld, fun other hother => ?_⟩
    cases hother
    exact hlogger
  rw [if_neg hthere, hmode, hrotates]
  have hmade := hworld.made hpath
  have hdirectories : (Session.makeDirectories path.parent).Ends world fun _ after =>
      after = { world with files := (world.files.makeDirectories path.parent).1 } := rfl
  apply hdirectories.bind
  · rintro _ _ rfl
    rw [Session.ofExcept_ok_bind]
    unfold Session.Ends
    set next : World := { world with files := (world.files.makeDirectories path.parent).1 }
    rw [Session.run_bind]
    cases hopened : Mode.append.openFile next.files path with
    | error error =>
      rw [run_openStream_of_error hopened]
      exact ⟨hmade, fun other hother => by cases hother⟩
    | ok files =>
      rw [run_openStream_of_ok hopened]
      refine ⟨hmade.opened hpath hopened, fun other hother => ?_⟩
      cases hother
      intro handler hhandler
      rcases List.mem_append.1 hhandler with hhandler | hhandler
      · exact hlogger handler hhandler
      · obtain rfl := List.mem_singleton.1 hhandler
        rintro place hplace ⟨⟩
        exact hpath hplace
  · rintro failure _ rfl
    exact ⟨hmade, fun other hother => by cases hother⟩

/-- Setting up a logger leaves all places but that of its file alone, whether or not it succeeds. -/
lemma ends_configure (hfile : options.fileLevel = none) (hmode : options.openMode = .ok .append)
    (hrotates : options.rotates = false)
    (hplaces : ∀ file path, options.fileName? = some file →
      ((Session.resolve file).run.run world).1 = .ok path → ¬places path)
    (hworld : world.Unlogged places) :
    (configure options).Ends world fun _ after => World.Prepared places world after := by
  have hprepared : World.Prepared places world world :=
    ⟨⟨rfl, rfl, rfl, rfl⟩, hworld, fun _ _ => .of_eq rfl, fun _ _ => rfl⟩
  cases hlevel : options.consoleLevel.resolve with
  | error text =>
    rw [Session.Ends, configure_of_unknown hlevel]
    exact hprepared
  | ok level =>
    have hlogger := options.spares_configured hworld level
    have hput : World.Prepared places world (options.configuring level world) :=
      (hprepared.put (Loggers.spares_obtained hworld options.name)).put hlogger
    have hends : (options.finish level (options.configured level world.loggers)).Ends
        (options.configuring level world) fun _ after => World.Prepared places world after := by
      unfold Options.finish
      cases hname : options.fileName? with
      | none => exact hput
      | some file =>
        apply (ends_withFile hmode hrotates (fun path hpath => ?_) hput hlogger).bind
        · rintro logger after ⟨hafter, hspares⟩
          exact hafter.put (hspares logger rfl)
        · rintro failure after ⟨hafter, -⟩
          exact hafter
        · rw [(options.sameSetting_configuring level world).result_resolve file] at hpath
          exact hplaces file path hname hpath
    rw [Session.Ends, configure_of_level hlevel hfile]
    exact hends

end Log

end Keyfile
