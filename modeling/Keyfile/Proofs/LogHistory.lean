import Keyfile.Proofs.LogSetup
import Keyfile.Proofs.WrittenAddresses

/-!
# Loggers that are configured again and again

Each call for a logger sets the console's handler and the level of the logger anew, but the handler
of a file stays as the first call for the file made it. So a logger has one handler for the console,
with the level of the last call, and one for each file, with the level of the first call for that
file. Which records of a file are lost can be read off the first call for it and the last call of
all.
-/

namespace Keyfile

namespace Session

variable {α β : Type} {x : Session α} {f : α → Session β} {world after : World} {b : β}

/-- What succeeded step by step has a result and a world in between. -/
lemma exists_of_run_bind (h : (x >>= f).run.run world = (.ok b, after)) :
    ∃ a between, x.run.run world = (.ok a, between) ∧ (f a).run.run between = (.ok b, after) := by
  rw [run_bind] at h
  rcases hrun : x.run.run world with ⟨failure | a, between⟩ <;> rw [hrun] at h
  · cases h
  · exact ⟨a, between, rfl, h⟩

lemma Looks.exists_of_run_bind (hlooks : Looks x)
    (h : (x >>= f).run.run world = (.ok b, after)) :
    ∃ a, (x.run.run world).1 = .ok a ∧ (f a).run.run world = (.ok b, after) := by
  obtain ⟨a, between, hx, hf⟩ := Session.exists_of_run_bind h
  have hsame := hlooks world
  rw [hx] at hsame
  cases hsame
  exact ⟨a, by rw [hx], hf⟩

end Session

namespace Log

/-- What a call asks of a logger: a level for the console and, with a file, the path of the file and
a level for it. -/
structure Demand where
  console : Int
  file : Option (Path × Int) := none
  deriving DecidableEq

/-- The least level that a call alone needs. -/
def Demand.least (demand : Demand) : Int :=
  match demand.file with
  | none => demand.console
  | some (_, level) => min demand.console level

/-- The files of some calls with the levels that are asked for them, in order. -/
def filesOf (demands : List Demand) : List (Path × Int) :=
  demands.filterMap Demand.file

/-- What a call asks for in a world: a file without a level gets that of the console. -/
inductive Options.Asks (options : Options) (world : World) : Demand → Prop
  | console {level : Int} (hname : options.fileName? = none)
      (hconsole : options.consoleLevel.resolve = .ok level) : Asks options world ⟨level, none⟩
  | file {file : Text} {path : Path} {console level : Int} (hname : options.fileName? = some file)
      (hpath : ((Session.resolve file).run.run world).1 = .ok path)
      (hconsole : options.consoleLevel.resolve = .ok console)
      (hlevel : (options.fileLevel.getD options.consoleLevel).resolve = .ok level) :
      Asks options world ⟨console, some (path, level)⟩

/-- What a call makes of a logger. The handler of a file that has one already is left as it is. -/
inductive Logger.Obeys (before : Logger) : Demand → Logger → Prop
  | console {console : Int} {layout : Layout} {propagates : Bool} :
      Obeys before ⟨console, none⟩ { before with
        level := console
        propagates
        handlers := before.handlers.map (configureConsole console layout) }
  | known {path : Path} {console level : Int} {layout : Layout} {propagates : Bool}
      (hknown : ∃ handler ∈ before.handlers, handler.path? = some path) :
      Obeys before ⟨console, some (path, level)⟩ { before with
        level := min console level
        propagates
        handlers := before.handlers.map (configureConsole console layout) }
  | added {path : Path} {console level : Int} {layout : Layout} {propagates : Bool}
      {handler : Handler} (hnew : ∀ other ∈ before.handlers, other.path? ≠ some path)
      (hpath : handler.path? = some path) (hlevel : handler.level = level) :
      Obeys before ⟨console, some (path, level)⟩ { before with
        level := min console level
        propagates
        handlers := before.handlers.map (configureConsole console layout) ++ [handler] }

section Calls

variable {options : Options} {console level : Int} {file : Text} {logger other : Logger}
  {world after : World}

lemma Loggers.find?_put (loggers : Loggers) (logger : Logger) :
    (loggers.put logger).find? logger.name = some logger := by
  unfold put find?
  split
  · rename_i hany
    induction loggers with
    | nil => cases hany
    | cons first rest ih =>
      rw [List.map_cons]
      by_cases hname : first.name = logger.name
      · rw [if_pos hname, List.find?_cons_of_pos (by simp)]
      · rw [if_neg hname, List.find?_cons_of_neg (by simpa using hname)]
        exact ih (by simpa [hname] using hany)
  · rename_i hany
    rw [List.find?_append, List.find?_eq_none.2 (by simpa using hany), Option.none_or]
    simp

lemma Loggers.name_obtained (loggers : Loggers) (name : Text) :
    (loggers.obtained name).name = name := by
  have hname : ((loggers.find? name).getD { name }).name = name := by
    cases hfound : loggers.find? name with
    | none => rfl
    | some logger => simpa using List.find?_some hfound
  unfold obtained
  dsimp only
  split <;> exact hname

lemma loggers_openStream {path : Path} {mode : Mode} {stream : Nat}
    (h : (openStream path mode).run.run world = (.ok stream, after)) :
    after.loggers = world.loggers := by
  cases hopened : mode.openFile world.files path with
  | error error =>
    rw [run_openStream_of_error hopened] at h
    cases h
  | ok files =>
    rw [run_openStream_of_ok hopened] at h
    cases h
    rfl

/-- A handler for a file is added unless the file has one, and no logger is touched. -/
lemma withFile_ok (h : (withFile options level file logger).run.run world = (.ok other, after)) :
    ∃ path, ((Session.resolve file).run.run world).1 = .ok path ∧ after.loggers = world.loggers ∧
      ((∃ handler ∈ logger.handlers, handler.path? = some path) ∧ other = logger ∨
        (∀ handler ∈ logger.handlers, handler.path? ≠ some path) ∧
          ∃ handler : Handler, handler.path? = some path ∧ handler.level = level ∧
            other = { logger with handlers := logger.handlers ++ [handler] }) := by
  unfold withFile at h
  obtain ⟨path, hpath, h⟩ := (Session.looks_resolve file).exists_of_run_bind h
  refine ⟨path, hpath, ?_⟩
  by_cases hany : logger.handlers.any (·.path? == some path) = true
  · rw [if_pos hany] at h
    cases h
    obtain ⟨handler, hmem, hhandler⟩ := List.any_eq_true.1 hany
    exact ⟨rfl, .inl ⟨⟨handler, hmem, eq_of_beq hhandler⟩, rfl⟩⟩
  · rw [if_neg hany] at h
    have hnew : ∀ handler ∈ logger.handlers, handler.path? ≠ some path := by
      intro handler hmem heq
      exact hany (List.any_eq_true.2 ⟨handler, hmem, by rw [heq, beq_self_eq_true]⟩)
    obtain ⟨_, made, hmade, h⟩ := Session.exists_of_run_bind h
    have hmade : made.loggers = world.loggers :=
      congrArg (fun result => result.2.loggers) hmade.symm
    obtain ⟨mode, -, h⟩ := (Session.Looks.of_except id options.openMode).exists_of_run_bind h
    obtain ⟨stream, opened, hopened, h⟩ := Session.exists_of_run_bind h
    have hopened := loggers_openStream hopened
    cases h
    refine ⟨hopened.trans hmade, .inr ⟨hnew, _, ?_, rfl, rfl⟩⟩
    cases options.rotates <;> rfl

lemma resolve_of_ofExcept {parameter : Text} {choice : LevelChoice}
    (h : ((Session.ofExcept id (resolveLevel parameter choice)).run.run world).1 = .ok level) :
    choice.resolve = .ok level := by
  unfold resolveLevel at h
  cases hresolve : choice.resolve with
  | error text =>
    rw [hresolve] at h
    cases h
  | ok found =>
    rw [hresolve] at h
    cases h
    rfl

/-- The logger of a call before the file is looked at. -/
def Options.preset (options : Options) (console level : Int) (loggers : Loggers) : Logger :=
  let logger := loggers.obtained options.name
  { logger with
    level := if options.fileName?.isSome then min console level else console
    propagates := options.propagates
    handlers := logger.handlers.map (configureConsole console options.layout) }

lemma configure_of_levels (hconsole : options.consoleLevel.resolve = .ok console)
    (hlevel : (options.fileLevel.getD options.consoleLevel).resolve = .ok level)
    (world : World) :
    (configure options).run.run world =
      (match options.fileName? with
        | none => return options.preset console level world.loggers
        | some file => do
          let logger ← withFile options level file (options.preset console level world.loggers)
          modify fun world => { world with loggers := world.loggers.put logger }
          return logger : Session Logger).run.run
        { world with
          loggers := (world.loggers.put (world.loggers.obtained options.name)).put
            (options.preset console level world.loggers) } := by
  unfold configure
  have hconsole' : resolveLevel "console_level".toList options.consoleLevel = .ok console := by
    rw [resolveLevel, hconsole]
    rfl
  rw [hconsole']
  cases hfile : options.fileLevel with
  | none =>
    rw [hfile, Option.getD_none, hconsole] at hlevel
    cases hlevel
    rfl
  | some choice =>
    rw [hfile, Option.getD_some] at hlevel
    have hlevel' : resolveLevel "file_level".toList choice = .ok level := by
      rw [resolveLevel, hlevel]
      rfl
    dsimp only
    rw [hlevel']
    rfl

/-- The levels of a successful call have names. -/
lemma exists_levels (h : (configure options).run.run world = (.ok logger, after)) :
    ∃ console level, options.consoleLevel.resolve = .ok console ∧
      (options.fileLevel.getD options.consoleLevel).resolve = .ok level := by
  unfold configure at h
  obtain ⟨console, hconsole, h⟩ := (Session.Looks.of_except _ _).exists_of_run_bind h
  have hconsole := resolve_of_ofExcept hconsole
  cases hfile : options.fileLevel with
  | none => exact ⟨console, console, hconsole, hconsole⟩
  | some choice =>
    rw [hfile] at h
    obtain ⟨level, hlevel, -⟩ := (Session.Looks.of_except _ _).exists_of_run_bind h
    exact ⟨console, level, hconsole, resolve_of_ofExcept hlevel⟩

/-- Everything that a successful call does to its logger. -/
lemma configure_ok (h : (configure options).run.run world = (.ok logger, after)) :
    ∃ demand, options.Asks world demand ∧
      (world.loggers.obtained options.name).Obeys demand logger ∧
      after.loggers.find? options.name = some logger := by
  obtain ⟨console, level, hconsole, hlevel⟩ := exists_levels h
  rw [configure_of_levels hconsole hlevel] at h
  have hname : (options.preset console level world.loggers).name = options.name :=
    world.loggers.name_obtained options.name
  cases hfile : options.fileName? with
  | none =>
    rw [hfile] at h
    cases h
    refine ⟨⟨console, none⟩, .console hfile hconsole, ?_, ?_⟩
    · rw [Options.preset, hfile]
      exact .console
    · have hfind := Loggers.find?_put (world.loggers.put (world.loggers.obtained options.name))
        (options.preset console level world.loggers)
      rwa [hname] at hfind
  | some file =>
    rw [hfile] at h
    obtain ⟨other, between, hwith, h⟩ := Session.exists_of_run_bind h
    cases h
    obtain ⟨path, hpath, -, hcases⟩ := withFile_ok hwith
    have hsetting : World.SameSetting { world with
        loggers := (world.loggers.put (world.loggers.obtained options.name)).put
          (options.preset console level world.loggers) } world := ⟨rfl, rfl, rfl, rfl⟩
    rw [hsetting.result_resolve] at hpath
    refine ⟨⟨console, some (path, level)⟩, .file hfile hpath hconsole hlevel, ?_, ?_⟩
    · have hlogger : options.preset console level world.loggers =
          { world.loggers.obtained options.name with
            level := min console level
            propagates := options.propagates
            handlers := (world.loggers.obtained options.name).handlers.map
              (configureConsole console options.layout) } := by
        rw [Options.preset, hfile]
        rfl
      rw [hlogger] at hcases
      rcases hcases with ⟨⟨handler, hmem, hhandler⟩, rfl⟩ | ⟨hnew, handler, hhandler, hown, rfl⟩
      · obtain ⟨kept, hkept, rfl⟩ := List.mem_map.1 hmem
        rw [path?_configureConsole] at hhandler
        exact .known ⟨kept, hkept, hhandler⟩
      · refine .added (fun kept hkept => ?_) hhandler hown
        rw [← path?_configureConsole console options.layout]
        exact hnew _ (List.mem_map_of_mem hkept)
    · have hfind := between.loggers.find?_put logger
      have hsame : logger.name = options.name := by
        rcases hcases with ⟨-, rfl⟩ | ⟨-, handler, -, -, rfl⟩
        · exact hname
        · exact hname
      rwa [hsame] at hfind

end Calls

def Handler.file? (handler : Handler) : Option (Path × Int) :=
  handler.path?.map (·, handler.level)

/-- A logger is what some calls made of it: one handler is for the console, with the level of the
last call, the logger has the level that the last call alone needs, and each file of a call has one
handler, with the level of the first call for the file. -/
structure Logger.Reflects (logger : Logger) (demands : List Demand) : Prop where
  console : ∃ handler, logger.handlers.filter (·.target = .console) = [handler] ∧
    ∀ last ∈ demands.getLast?, handler.level = last.console
  level : ∀ last ∈ demands.getLast?, logger.level = last.least
  paths : (logger.handlers.filterMap Handler.path?).Nodup
  files : ∀ path level, (path, level) ∈ logger.handlers.filterMap Handler.file? ↔
    (filesOf demands).lookup path = some level

section Steps

variable {handlers : List Handler} {console level : Int} {layout : Layout} {path : Path}
  {demand : Demand} {demands : List Demand} {before after : Logger} {name : Text}

lemma file?_configureConsole (handler : Handler) :
    (configureConsole console layout handler).file? = handler.file? := by
  unfold configureConsole
  split
  · rename_i htarget
    simp [Handler.file?, Handler.path?, htarget]
  · rfl

lemma filterMap_path?_configureConsole :
    (handlers.map (configureConsole console layout)).filterMap Handler.path? =
      handlers.filterMap Handler.path? := by
  rw [List.filterMap_map]
  exact congrArg (handlers.filterMap ·) (funext (path?_configureConsole console layout))

lemma filterMap_file?_configureConsole :
    (handlers.map (configureConsole console layout)).filterMap Handler.file? =
      handlers.filterMap Handler.file? := by
  rw [List.filterMap_map]
  exact congrArg (handlers.filterMap ·) (funext file?_configureConsole)

/-- The one handler of the console gets the level that is asked for. -/
lemma exists_filter_configureConsole {handler : Handler}
    (h : handlers.filter (·.target = .console) = [handler]) :
    ∃ after, (handlers.map (configureConsole console layout)).filter (·.target = .console) =
      [after] ∧ after.level = console := by
  have htarget : handler.target = .console := by
    have hmem : handler ∈ handlers.filter (·.target = .console) := by rw [h]; exact .head _
    simpa using (List.mem_filter.1 hmem).2
  refine ⟨configureConsole console layout handler, ?_, ?_⟩
  · have hsame : ((fun other : Handler => decide (other.target = .console)) ∘
        configureConsole console layout) = fun other => decide (other.target = .console) :=
      funext fun other => by rw [Function.comp, target_configureConsole]
    rw [List.filter_map, hsame, h, List.map_singleton]
  · rw [configureConsole, htarget]

lemma lookup_singleton_of_ne {other : Path} (h : other ≠ path) :
    [(path, level)].lookup other = none := by
  rw [List.lookup_cons, beq_false_of_ne h]
  rfl

/-- What is asked for a file again is not looked at. -/
lemma lookup_concat_of_known {files : List (Path × Int)} {first : Int}
    (h : files.lookup path = some first) (other : Path) :
    (files ++ [(path, level)]).lookup other = files.lookup other := by
  rw [List.lookup_append]
  by_cases hpath : other = path
  · rw [hpath, h, Option.some_or]
  · rw [lookup_singleton_of_ne hpath, Option.or_none]

lemma lookup_concat_eq_some_iff {files : List (Path × Int)} (h : files.lookup path = none)
    (other : Path) (found : Int) : (files ++ [(path, level)]).lookup other = some found ↔
      files.lookup other = some found ∨ other = path ∧ found = level := by
  rw [List.lookup_append]
  by_cases hpath : other = path
  · rw [hpath, h, Option.none_or, List.lookup_cons_self, Option.some_inj]
    simp [eq_comm]
  · rw [lookup_singleton_of_ne hpath, Option.or_none]
    simp [hpath]

lemma filesOf_concat (demands : List Demand) (demand : Demand) :
    filesOf (demands ++ [demand]) = filesOf demands ++ demand.file.toList := by
  rw [filesOf, List.filterMap_append]
  cases hfile : demand.file <;> simp [filesOf, hfile]

lemma mem_file?_iff : (∃ handler ∈ handlers, handler.path? = some path) ↔
    ∃ level, (path, level) ∈ handlers.filterMap Handler.file? := by
  constructor
  · rintro ⟨handler, hmem, hpath⟩
    exact ⟨handler.level, List.mem_filterMap.2 ⟨handler, hmem, by simp [Handler.file?, hpath]⟩⟩
  · rintro ⟨level, hlevel⟩
    obtain ⟨handler, hmem, hfile⟩ := List.mem_filterMap.1 hlevel
    obtain ⟨own, hpath, heq⟩ := Option.map_eq_some_iff.1 hfile
    exact ⟨handler, hmem, hpath.trans (congrArg some (Prod.mk.inj heq).1)⟩

/-- A call keeps a logger what the calls made of it, itself included. -/
lemma Logger.Obeys.reflects (h : before.Obeys demand after) (hbefore : before.Reflects demands) :
    after.Reflects (demands ++ [demand]) := by
  obtain ⟨handler, hhandler, -⟩ := hbefore.console
  cases h with
  | console =>
    refine ⟨?_, by simp [Demand.least], ?_, ?_⟩
    · simpa using exists_filter_configureConsole hhandler
    · rw [filterMap_path?_configureConsole]
      exact hbefore.paths
    · rw [filterMap_file?_configureConsole, filesOf_concat]
      simpa using hbefore.files
  | @known path console level layout propagates hknown =>
    refine ⟨?_, by simp [Demand.least], ?_, fun other otherLevel => ?_⟩
    · simpa using exists_filter_configureConsole hhandler
    · rw [filterMap_path?_configureConsole]
      exact hbefore.paths
    · obtain ⟨first, hfirst⟩ := mem_file?_iff.1 hknown
      have hlookup := (hbefore.files path first).1 hfirst
      rw [filterMap_file?_configureConsole, filesOf_concat, Option.toList_some,
        lookup_concat_of_known hlookup, hbefore.files]
  | @added path console level layout propagates handler hnew hpath hlevel =>
    have htarget : handler.target ≠ .console := by
      intro hconsole
      rw [Handler.path?, hconsole] at hpath
      cases hpath
    -- every file that was asked for has a handler, so this one was not asked for before
    have hunknown : (filesOf demands).lookup path = none := by
      rw [Option.eq_none_iff_forall_ne_some]
      intro first hfirst
      obtain ⟨other, hother, hknown⟩ := mem_file?_iff.2 ⟨first, (hbefore.files path first).2 hfirst⟩
      exact hnew other hother hknown
    refine ⟨?_, by simp [Demand.least], ?_, fun other otherLevel => ?_⟩
    · simpa [htarget] using exists_filter_configureConsole hhandler
    · rw [List.filterMap_append, filterMap_path?_configureConsole, List.filterMap_cons_some hpath,
        List.filterMap_nil]
      refine hbefore.paths.append (List.nodup_singleton path) ?_
      rw [List.disjoint_singleton]
      intro hmem
      obtain ⟨other, hother, hknown⟩ := List.mem_filterMap.1 hmem
      exact hnew other hother hknown
    · have hfile : handler.file? = some (path, level) := by simp [Handler.file?, hpath, hlevel]
      rw [List.filterMap_append, filterMap_file?_configureConsole,
        List.filterMap_cons_some hfile, List.mem_append, hbefore.files, filesOf_concat,
        Option.toList_some, lookup_concat_eq_some_iff hunknown, List.filterMap_nil,
        List.mem_singleton, Prod.mk.injEq]

end Steps

namespace Loggers

variable {loggers : Loggers} {logger : Logger} {handler : Handler} {name : Text}

/-- All records of a channel from a level on reach a handler; a record without a positive level
reaches none. -/
def Reach (loggers : Loggers) (name : Text) (level : Int) (handler : Handler) : Prop :=
  ∀ record : Record, record.channel = name → 0 < record.level → level ≤ record.level →
    handler ∈ loggers.handlersFor record

/-- A channel is the first of those above it. -/
lemma exists_lineage_eq_cons (channel : Text) : ∃ rest, lineage channel = channel :: rest := by
  obtain ⟨n, hn⟩ := Nat.exists_eq_succ_of_ne_zero
    (List.length_eq_zero_iff.not.2 (Text.splitAt_ne_nil '.' channel))
  have hlast : Text.join ['.'] ((Text.splitAt '.' channel).take (n + 1)) = channel := by
    rw [List.take_of_length_le hn.le, Text.join_splitAt]
  refine ⟨((List.range n).map fun n =>
    Text.join ['.'] ((Text.splitAt '.' channel).take (n + 1))).reverse, ?_⟩
  rw [lineage, hn, Nat.succ_eq_add_one, List.range_succ, List.map_append, List.reverse_append]
  simp [hlast]

lemma exists_above_eq_cons (h : loggers.find? name = some logger) :
    ∃ rest, loggers.above name = logger :: rest := by
  obtain ⟨rest, hrest⟩ := exists_lineage_eq_cons name
  exact ⟨rest.filterMap loggers.find?, by rw [above, hrest, List.filterMap_cons_some h]⟩

/-- A logger that has a level passes on what it needs itself. -/
lemma effectiveLevel_of_ne_zero (h : loggers.find? name = some logger) (hlevel : logger.level ≠ 0) :
    loggers.effectiveLevel name = logger.level := by
  obtain ⟨rest, hrest⟩ := exists_above_eq_cons h
  rw [effectiveLevel, hrest, List.find?_cons_of_pos (by simpa using hlevel)]

lemma mem_handlersFor_iff (h : loggers.find? name = some logger) (hmem : handler ∈ logger.handlers)
    {record : Record} (hchannel : record.channel = name) (hpositive : 0 < record.level) :
    handler ∈ loggers.handlersFor record ↔
      loggers.effectiveLevel name ≤ record.level ∧ handler.level ≤ record.level := by
  obtain ⟨rest, hrest⟩ := exists_above_eq_cons h
  have hown : handler ∈ handlersOf (loggers.above name) := by
    rw [hrest, handlersOf]
    exact List.mem_append_left _ hmem
  rw [handlersFor, hchannel]
  split
  · rename_i hlow
    have hlow : record.level < loggers.effectiveLevel name := by
      simp only [Bool.or_eq_true, decide_eq_true_eq] at hlow
      omega
    exact iff_of_false List.not_mem_nil fun h => absurd h.1 (Int.not_le.2 hlow)
  · rename_i hhigh
    have hhigh : loggers.effectiveLevel name ≤ record.level := by
      simp only [Bool.or_eq_true, decide_eq_true_eq] at hhigh
      omega
    simp [hown, hhigh]

/-- A handler is reached from a level on exactly when neither the logger nor the handler asks for
more. -/
lemma reach_iff (h : loggers.find? name = some logger) (hmem : handler ∈ logger.handlers)
    (level : Int) : loggers.Reach name level handler ↔
      loggers.effectiveLevel name ≤ max 1 level ∧ handler.level ≤ max 1 level := by
  constructor
  · intro hreach
    -- the lowest record of all that are to reach the handler tells both levels
    have hrecord := hreach ⟨name, max 1 level, []⟩ rfl (by dsimp only; omega) (by dsimp only; omega)
    exact (mem_handlersFor_iff h hmem rfl (by dsimp only; omega)).1 hrecord
  · rintro ⟨hlogger, hhandler⟩ record hchannel hpositive hlevel
    rw [mem_handlersFor_iff h hmem hchannel hpositive]
    omega

end Loggers

/-- A world after some successful calls for the logger of a name, with what they asked for. Before
the first call the logger has a handler for the console at most; between the calls everything may
happen that leaves the logger as it is. -/
inductive History (name : Text) : World → List Demand → Prop
  | start {world : World} {handler : Handler}
      (hconsole : handler.target = .console)
      (hhandlers : (world.loggers.obtained name).handlers = [handler]) : History name world []
  | other {world after : World} {demands : List Demand} (h : History name world demands)
      (hsame : after.loggers.find? name = world.loggers.find? name) : History name after demands
  | call {world after : World} {demands : List Demand} {options : Options} {demand : Demand}
      {logger : Logger} (h : History name world demands) (hname : options.name = name)
      (hasks : options.Asks world demand)
      (hrun : (configure options).run.run world = (.ok logger, after)) :
      History name after (demands ++ [demand])

section Histories

variable {name : Text} {world : World} {demands : List Demand}

lemma Loggers.obtained_of_find? {loggers : Loggers} {logger : Logger}
    (h : loggers.find? name = some logger) (hhandlers : logger.handlers ≠ []) :
    loggers.obtained name = logger := by
  unfold obtained
  rw [h, Option.getD_some, if_neg hhandlers]

lemma Logger.Reflects.handlers_ne_nil {logger : Logger} (h : logger.Reflects demands) :
    logger.handlers ≠ [] := by
  obtain ⟨handler, hhandler, -⟩ := h.console
  rintro hnil
  rw [hnil] at hhandler
  cases hhandler

lemma Options.Asks.unique {options : Options} {demand other : Demand}
    (h : options.Asks world demand) (hother : options.Asks world other) : demand = other := by
  cases h with
  | console hname hconsole =>
    cases hother with
    | console _ hotherConsole =>
      cases hconsole.symm.trans hotherConsole
      rfl
    | file hotherName => cases hname.symm.trans hotherName
  | file hname hpath hconsole hlevel =>
    cases hother with
    | console hotherName => cases hname.symm.trans hotherName
    | file hotherName hotherPath hotherConsole hotherLevel =>
      cases hname.symm.trans hotherName
      cases hpath.symm.trans hotherPath
      cases hconsole.symm.trans hotherConsole
      cases hlevel.symm.trans hotherLevel
      rfl

/-- Every successful call goes on with a history. -/
lemma History.exists_call (h : History name world demands) {options : Options} {logger : Logger}
    {after : World} (hname : options.name = name)
    (hrun : (configure options).run.run world = (.ok logger, after)) :
    ∃ demand, options.Asks world demand ∧ History name after (demands ++ [demand]) := by
  obtain ⟨demand, hasks, -, -⟩ := configure_ok hrun
  exact ⟨demand, hasks, h.call hname hasks hrun⟩

lemma reflects_nil {logger : Logger} {handler : Handler} (hconsole : handler.target = .console)
    (hhandlers : logger.handlers = [handler]) : logger.Reflects [] := by
  have hpath : handler.path? = none := by rw [Handler.path?, hconsole]
  refine ⟨⟨handler, by simp [hhandlers, hconsole], by simp⟩, by simp, ?_, fun path level => ?_⟩
  · simp [hhandlers, hpath]
  · simp [hhandlers, Handler.file?, hpath, filesOf]

/-- What a history made of its logger; after a call the logger is there. -/
lemma History.reflects (h : History name world demands) :
    (world.loggers.obtained name).Reflects demands ∧
      (demands ≠ [] → world.loggers.find? name = some (world.loggers.obtained name)) := by
  induction h with
  | start hconsole hhandlers => exact ⟨reflects_nil hconsole hhandlers, fun h => absurd rfl h⟩
  | @other world after demands h hsame ih =>
    have hobtained : after.loggers.obtained name = world.loggers.obtained name := by
      rw [Loggers.obtained, Loggers.obtained, hsame]
    rwa [hobtained, hsame]
  | @call world after demands options demand logger h hname hasks hrun ih =>
    obtain ⟨other, hother, hobeys, hfind⟩ := configure_ok hrun
    obtain rfl := hasks.unique hother
    rw [hname] at hobeys hfind
    have hreflects := hobeys.reflects ih.1
    rw [Loggers.obtained_of_find? hfind hreflects.handlers_ne_nil]
    exact ⟨hreflects, fun _ => hfind⟩

lemma exists_lookup_of_reverse {files : List (Path × Int)} {path : Path} {recent : Int}
    (h : files.reverse.lookup path = some recent) : ∃ first, files.lookup path = some first := by
  rw [← Option.ne_none_iff_exists']
  intro hnone
  rw [List.lookup_eq_none_iff] at hnone
  have hreverse : files.reverse.lookup path = none :=
    List.lookup_eq_none_iff.2 fun entry hentry => hnone entry (List.mem_reverse.1 hentry)
  rw [h] at hreverse
  cases hreverse

/-- However often a logger is configured, it has one handler for the console, with the level that
was asked for last, and one for each file that was ever asked for. But the handler of a file keeps
the level of the first call for the file, and the logger has the level that the last call alone
needs. So the records of a file reach its handler from the level that was asked for most recently on
exactly when neither of the two is above that level. -/
theorem logger_after_calls (h : History name world demands) :
    (∀ options logger after, options.name = name →
      (configure options).run.run world = (.ok logger, after) →
      ∃ demand, options.Asks world demand ∧ History name after (demands ++ [demand])) ∧
    ∀ last, demands.getLast? = some last → ∃ logger, world.loggers.find? name = some logger ∧
      logger.Reflects demands ∧
      (last.least ≠ 0 → world.loggers.effectiveLevel name = last.least) ∧
      ∀ path recent, (filesOf demands).reverse.lookup path = some recent →
        ∃ handler ∈ logger.handlers, ∃ first, handler.file? = some (path, first) ∧
          (filesOf demands).lookup path = some first ∧
          (world.loggers.Reach name recent handler ↔
            world.loggers.effectiveLevel name ≤ max 1 recent ∧ first ≤ max 1 recent) := by
  refine ⟨fun options logger after hname hrun => h.exists_call hname hrun, fun last hlast => ?_⟩
  obtain ⟨hreflects, hfind⟩ := h.reflects
  have hfind := hfind (by rintro rfl; cases hlast)
  have hlevel := hreflects.level last hlast
  refine ⟨_, hfind, hreflects, fun hne => ?_, fun path recent hrecent => ?_⟩
  · rw [Loggers.effectiveLevel_of_ne_zero hfind (hlevel ▸ hne), hlevel]
  · obtain ⟨first, hfirst⟩ := exists_lookup_of_reverse hrecent
    obtain ⟨handler, hmem, hfile⟩ := List.mem_filterMap.1 ((hreflects.files path first).2 hfirst)
    have hown : handler.level = first := by
      obtain ⟨own, -, heq⟩ := Option.map_eq_some_iff.1 hfile
      exact (Prod.mk.inj heq).2
    refine ⟨handler, hmem, first, hfile, hfirst, ?_⟩
    rw [Loggers.reach_iff hfind hmem, hown]

lemma History.call_of_ok (h : History name world demands) {options : Options} {demand : Demand}
    {logger : Logger} (hname : options.name = name) (hasks : options.Asks world demand)
    (hok : ((configure options).run.run world).1 = .ok logger) :
    History name ((configure options).run.run world).2 (demands ++ [demand]) :=
  h.call hname hasks (Prod.ext hok rfl)

end Histories

/-- A call for the file `a.log` with all records for debugging. -/
def debuggingCall : Options :=
  { file := some "a.log".toList, fileLevel := some (.name "DEBUG".toList), layout := .plain }

/-- A call for the file `b.log` with errors, and for the console with all records. -/
def errorCall : Options where
  consoleLevel := .name "DEBUG".toList
  file := some "b.log".toList
  fileLevel := some (.name "ERROR".toList)

/-- A call without a file. -/
def quietCall : Options :=
  { layout := .plain }

/-- The world after a call for the file `a.log` in a session that had no loggers. -/
def debuggingWorld : World :=
  ((configure debuggingCall).run.run { machine := default }).2

lemma history_debuggingWorld :
    History "confpp".toList debuggingWorld [⟨30, some (["a.log".toList], 10)⟩] := by
  have hstart : History "confpp".toList { machine := default } [] := .start rfl rfl
  have hasks : debuggingCall.Asks { machine := default } ⟨30, some (["a.log".toList], 10)⟩ := by
    refine .file rfl ?_ ?_ ?_ <;> decide +kernel
  have hok : ((configure debuggingCall).run.run { machine := default }).1 =
      .ok (debuggingWorld.loggers.obtained "confpp".toList) := by
    decide +kernel
  exact hstart.call_of_ok rfl hasks hok

/-- A second file is added, and the records of both files reach their handlers from the level of
their own call on. -/
theorem logger_after_twoFiles :
    ∃ world : World, History "confpp".toList world
        [⟨30, some (["a.log".toList], 10)⟩, ⟨10, some (["b.log".toList], 40)⟩] ∧
      ∃ logger, world.loggers.find? "confpp".toList = some logger ∧
        (∃ handler ∈ logger.handlers, handler.file? = some (["a.log".toList], 10) ∧
          world.loggers.Reach "confpp".toList 10 handler) ∧
        ∃ handler ∈ logger.handlers, handler.file? = some (["b.log".toList], 40) ∧
          world.loggers.Reach "confpp".toList 40 handler := by
  have hasks : errorCall.Asks debuggingWorld ⟨10, some (["b.log".toList], 40)⟩ := by
    refine .file rfl ?_ ?_ ?_ <;> decide +kernel
  have hok : ((configure errorCall).run.run debuggingWorld).1 =
      .ok (((configure errorCall).run.run debuggingWorld).2.loggers.obtained
        "confpp".toList) := by
    decide +kernel
  have hhistory := history_debuggingWorld.call_of_ok rfl hasks hok
  obtain ⟨logger, hfind, -, hlevel, hfiles⟩ := (logger_after_calls hhistory).2 _ rfl
  have hlevel := hlevel (by decide)
  obtain ⟨handler, hmem, first, hfile, hfirst, hreach⟩ := hfiles ["a.log".toList] 10 (by decide)
  obtain ⟨other, hother, second, hfile', hsecond, hreach'⟩ :=
    hfiles ["b.log".toList] 40 (by decide)
  obtain rfl : 10 = first := Option.some.inj (.trans (by decide) hfirst)
  obtain rfl : 40 = second := Option.some.inj (.trans (by decide) hsecond)
  rw [hlevel] at hreach hreach'
  exact ⟨_, hhistory, logger, hfind, ⟨handler, hmem, hfile, hreach.2 (by decide)⟩,
    other, hother, hfile', hreach'.2 (by decide)⟩

/-- A second call without a file cuts the first call's file off: the records for debugging that were
asked for reach no handler any more. -/
theorem not_reach_after_quietCall :
    ∃ world : World, History "confpp".toList world
        [⟨30, some (["a.log".toList], 10)⟩, ⟨30, none⟩] ∧
      (filesOf [⟨30, some (["a.log".toList], 10)⟩, ⟨30, none⟩]).reverse.lookup
        ["a.log".toList] = some 10 ∧
      ∀ handler, ¬world.loggers.Reach "confpp".toList 10 handler := by
  have hasks : quietCall.Asks debuggingWorld ⟨30, none⟩ := .console rfl (by decide +kernel)
  have hok : ((configure quietCall).run.run debuggingWorld).1 =
      .ok (((configure quietCall).run.run debuggingWorld).2.loggers.obtained
        "confpp".toList) := by
    decide +kernel
  refine ⟨_, history_debuggingWorld.call_of_ok rfl hasks hok, by decide, fun handler hreach => ?_⟩
  have hnone : (((configure quietCall).run.run debuggingWorld).2.loggers.handlersFor
      ⟨"confpp".toList, 10, "m".toList⟩) = [] := by
    decide +kernel
  have hmem := hreach ⟨"confpp".toList, 10, "m".toList⟩ rfl (by decide) (by decide)
  rw [hnone] at hmem
  cases hmem

end Log

end Keyfile
