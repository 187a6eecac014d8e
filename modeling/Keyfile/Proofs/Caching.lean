import Keyfile.Proofs.ContextAgreement
import Keyfile.Proofs.SavedFile
import Keyfile.Proofs.StraightNames

/-!
# The cache of a provider

A text that a provider answered with is kept in a cache file. A later load that gets no answer reads
it back with its line breaks made line feeds, and comes to what the first load came to: the same
lines are there, under the same numbers.
-/

namespace Keyfile

/-- The places that are passed when names are followed from one place to another. -/
def Path.stations (here : Path) : List Text → List Path
  | [] => [here]
  | name :: rest => here :: stations (Path.step here name) rest

lemma FileTree.leads_congr {tree other : FileTree} {here : Path} {names : List Text}
    (h : ∀ place ∈ Path.stations here names, tree.get? place = other.get? place) :
    tree.leads here names = other.leads here names := by
  induction names generalizing here with
  | nil => rw [leads, leads, contains, contains, h here List.mem_cons_self]
  | cons name rest ih =>
    obtain ⟨hhere, hrest⟩ := List.forall_mem_cons.1 h
    rw [leads, leads, hhere, ih hrest]

/-- A place that is passed when it is asked whether a name is there. -/
def World.Passes (world : World) (name : Text) (place : Path) : Prop :=
  ∃ way, Path.expandHome world.homeOf name = some way ∧
    place ∈ Path.stations (Path.start world.directory way) (Path.steps way)

lemma World.SameSetting.passes {world other : World} (h : world.SameSetting other) (name : Text)
    (place : Path) : world.Passes name place ↔ other.Passes name place := by
  rw [World.Passes, World.Passes, h.homeOf, h.directory]

namespace Session

lemma looks_isThere (name : Text) : Looks (isThere name) :=
  (looks_expandHome name).bind fun _ => .get_bind fun _ => .of_except _ _

lemma result_isThere (name : Text) (world : World) :
    ((isThere name).run.run world).1 = ((expandHome name).run.run world).1.bind fun way =>
      (world.files.leadsTo world.directory way).mapError .file := by
  rw [isThere, run_bind, (looks_expandHome name).run_eq world]
  cases ((expandHome name).run.run world).1 with
  | error failure => rfl
  | ok way => rfl

lemma expandHome_of_result {name way : Text} {world : World}
    (h : ((expandHome name).run.run world).1 = .ok way) :
    Path.expandHome world.homeOf name = some way := by
  rw [run_expandHome_eq] at h
  split at h
  · rename_i t ht
    obtain rfl : t = way := Except.ok.inj h
    exact ht
  · split at h <;> cases h

/-- Whether a name is there depends on the places that are passed. -/
lemma result_isThere_congr {world other : World} (h : world.SameSetting other) {name : Text}
    (hplaces : ∀ place, world.Passes name place →
      world.files.get? place = other.files.get? place) :
    ((isThere name).run.run world).1 = ((isThere name).run.run other).1 := by
  have hhome : ((expandHome name).run.run world).1 = ((expandHome name).run.run other).1 :=
    (agree_expandHome (fun _ _ h => h) name world other h).1
  rw [result_isThere, result_isThere, ← hhome, ← h.directory]
  cases hway : ((expandHome name).run.run world).1 with
  | error failure => rfl
  | ok way =>
    have hleads : world.files.leads (Path.start world.directory way) (Path.steps way) =
        other.files.leads (Path.start world.directory way) (Path.steps way) :=
      FileTree.leads_congr fun place hplace =>
        hplaces place ⟨way, expandHome_of_result hway, hplace⟩
    simp only [Except.bind, FileTree.leadsTo, hleads]

end Session

namespace World

/-- A straight name is there when the whole way is made of directories and something stands at its
end. -/
lemma Straight.result_isThere {world : World} {name : Text} (h : world.Straight name)
    (hway : ∀ place, place <+: Path.ofText world.directory name →
      place ≠ Path.ofText world.directory name → world.files.get? place = some .directory) :
    ((Session.isThere name).run.run world).1 =
      .ok (world.files.contains (Path.ofText world.directory name)) := by
  rw [Session.result_isThere, h.run_expandHome]
  dsimp only [Except.bind]
  rw [h.leadsTo_of_directories hway]
  rfl

/-- The world after a provider was asked. -/
def hearing (world : World) (request : Request) : World :=
  { world with replies := world.replies.tail, requests := request :: world.requests }

lemma sameFacts_hearing (world : World) (request : Request) :
    (world.hearing request).SameFacts world :=
  ⟨⟨rfl, rfl, rfl, rfl⟩, rfl⟩

end World

namespace Provider

variable {world after : World} {request : Request} {file text : Text} {cache : Path}

/-- An answer that can be kept is kept. -/
lemma run_fetch_text (hcache : request.cacheFile = some file) (hfile : file ≠ [])
    (hreply : world.replies.head? = some (.text text))
    (hresolve : ((Session.resolve file).run.run (world.hearing request)).1 = .ok cache)
    (hwrite : (Session.writeText cache text).run.run (world.hearing request) = (.ok (), after)) :
    (fetch request).run.run world = (.ok (some text), after) := by
  have hask : (ask request).run.run world = (.ok (.text text), world.hearing request) := by
    have hrun : (ask request).run.run world =
        (.ok (world.replies.head?.getD .nothing), world.hearing request) := rfl
    rw [hrun, hreply]
    rfl
  have hpath : (Session.resolve file).run.run (world.hearing request) =
      (.ok cache, world.hearing request) :=
    Prod.ext hresolve (Session.looks_resolve file _)
  have hkeep : (keep cache text).run.run (world.hearing request) = (.ok (), after) := by
    rw [keep, Session.run_bind, Session.run_attempt, hwrite]
    rfl
  have hnamed : request.cacheFile.filter (· ≠ []) = some file := by simp [hcache, hfile]
  rw [fetch, Session.run_bind_of_ok hask]
  simp only [hnamed]
  rw [Session.run_bind_of_ok hpath, Session.run_bind_of_ok hkeep]
  rfl

/-- Without an answer a cache that is there is read. -/
lemma run_fetch_cached (hcache : request.cacheFile = some file) (hfile : file ≠ [])
    (hreply : ∀ text, world.replies.head? ≠ some (.text text))
    (hresolve : ((Session.resolve file).run.run (world.hearing request)).1 = .ok cache)
    (hthere : ((Session.isThere file).run.run (world.hearing request)).1 = .ok true)
    (hcontent : world.files.get? cache = some (.file (text.flatMap Encoding.utf8Bytes))) :
    (fetch request).run.run world =
      (.ok (some (Text.normalizeNewlines text)), world.hearing request) := by
  have hask : (ask request).run.run world =
      (.ok (world.replies.head?.getD .nothing), world.hearing request) := rfl
  have hpath : (Session.resolve file).run.run (world.hearing request) =
      (.ok cache, world.hearing request) :=
    Prod.ext hresolve (Session.looks_resolve file _)
  have hfound : (Session.isThere file).run.run (world.hearing request) =
      (.ok true, world.hearing request) :=
    Prod.ext hthere (Session.looks_isThere file _)
  have hread : (Session.readText cache).run.run (world.hearing request) =
      (.ok (Text.normalizeNewlines text), world.hearing request) :=
    Session.run_readText hcontent
  have hnamed : request.cacheFile.filter (· ≠ []) = some file := by simp [hcache, hfile]
  have hreading : ((do
      if ← Session.isThere file then
        return some (← Session.readText (← Session.resolve file))
      else return none) : Session (Option Text)).run.run (world.hearing request) =
        (.ok (some (Text.normalizeNewlines text)), world.hearing request) := by
    rw [Session.run_bind_of_ok hfound, if_pos rfl, Session.run_bind_of_ok hpath,
      Session.run_bind_of_ok hread]
    rfl
  rw [fetch, Session.run_bind_of_ok hask]
  simp only [hnamed]
  cases hreplies : world.replies.head? with
  | none => exact hreading
  | some reply =>
    cases reply with
    | text answer => exact absurd hreplies (hreply answer)
    | nothing => exact hreading
    | failure => exact hreading

end Provider

namespace Context

variable {context : Context} {world later : World} {file text : Text} {cache : Path}

variable (context world) in
/-- The world in which the provider is asked. -/
def asked : World :=
  (context.asking.run.run world).2

variable (context world file text cache) in
/-- A context that is not built yet and whose text names a provider and a cache file that can be
written; the provider has a text for it. -/
structure Asks : Prop where
  unbuilt : context.loaded = none
  given : ∃ source, context.text = some source
  asks : ∃ own request, (context.asking.run.run world).1 = .ok (own, some request) ∧
    request.cacheFile = some file
  named : file ≠ []
  resolved : ((Session.resolve file).run.run world).1 = .ok cache
  writable : (context.asked world).files.Writable cache
  answered : world.replies.head? = some (.text text)

variable (context world file cache) in
/-- The places that have a say in loading from a cache: the cache itself, the way to it, the file
that is its temporary one while it is written, and the override file. -/
inductive Involved : Path → Prop
  | cache : Involved cache
  | temporary (below : Path) :
      Involved (Replacement.temporary (context.asked world).files cache ++ below)
  | way {place : Path} (h : world.Passes file place) : Involved place
  | override {path : Path} (h : context.overridePath world = .ok (some path)) : Involved path

lemma run_configuration (h : context.loaded = none) :
    context.configuration.run.run world =
      ((context.assemble.run.run world).1.map fun loaded =>
        (loaded, { context with loaded := some loaded, builds := context.builds + 1 }),
        (context.assemble.run.run world).2) := by
  rw [configuration, h]
  dsimp only
  rw [Session.run_bind]
  rcases context.assemble.run.run world with ⟨failure | loaded, after⟩ <;> rfl

/-- When a request is fetched the load goes on with what was fetched. -/
lemma run_assemble {own : Surrounded} {request : Request} {answer : Option Text} {between : World}
    (hasks : (context.asking.run.run world).1 = .ok (own, some request))
    (hfetch : (Provider.fetch request).run.run (context.asked world) = (.ok answer, between)) :
    context.assemble.run.run world = (context.complete own answer).run.run between := by
  have hasking : context.asking.run.run world = (.ok (own, some request), context.asked world) :=
    Prod.ext hasks rfl
  rw [assemble_eq_asking, Session.run_bind_of_ok hasking]
  dsimp only
  rw [Session.run_bind_of_ok hfetch]

end Context

namespace Session

/-- Writing a text to a writable path leaves what was written there to all places that logging keeps
away from. -/
lemma exists_run_writeText_undisturbed {world : World} {places : Path → Prop} {path : Path}
    (h : world.files.Writable path) (hquiet : world.Undisturbed places)
    (htemporary : ∀ below, places (Replacement.temporary world.files path ++ below))
    (text : Text) :
    ∃ files after, (writeText path text).run.run world = (.ok (), after) ∧
      Wrote world.files files path (text.flatMap Encoding.utf8Bytes) ∧ world.SameFacts after ∧
      after.Shows places files := by
  obtain ⟨files, hwrite, hwrote⟩ := exists_run_writeText_deliver h text
  refine ⟨files, _, hwrite, hwrote, ⟨⟨rfl, rfl, rfl, rfl⟩, rfl⟩, ?_⟩
  have hmoved : World.Undisturbed places
      { world with
        files
        streams := world.streams.follow world.files
          (Replacement.temporary world.files path) path } := by
    refine ⟨hquiet.handlers, fun place hplace => ?_⟩
    exact (hquiet.streams place hplace).follow_of_source
      (fun below _ => hquiet.streams _ (htemporary below)) _
  exact hmoved.shows.deliver (.textWritten (pathText path))

end Session

namespace Context

variable {context : Context} {world later : World} {file text : Text} {cache : Path}

/-- A name is resolved alike in worlds of one setting, whoever was asked there. -/
lemma result_resolve_hearing {other : World} (h : other.SameSetting world) (name : Text)
    (request : Request) :
    ((Session.resolve name).run.run (other.hearing request)).1 =
      ((Session.resolve name).run.run world).1 :=
  (Session.agree_resolve (fun _ _ h => h) name _ _
    ((World.sameFacts_hearing other request).toSameSetting.trans h)).1

variable (context world file text cache) in
/-- A load whose provider answered: it asked, the answer was written to the cache, and it went on in
the world that was written to. -/
structure Answered (own : Surrounded) (request : Request) (files : FileTree) (written : World) :
    Prop where
  asks : (context.asking.run.run world).1 = .ok (own, some request)
  named : request.cacheFile = some file
  asked : World.Keeps (context.Involved world file cache) world (context.asked world)
  wrote : Session.Wrote (context.asked world).files files cache (text.flatMap Encoding.utf8Bytes)
  facts : (context.asked world).SameFacts written
  shows : written.Shows (context.Involved world file cache) files
  run : context.assemble.run.run world = (context.complete own (some text)).run.run written

section

variable {own : Surrounded} {request : Request} {files : FileTree} {written : World}

lemma Asks.exists_answered (h : context.Asks world file text cache)
    (hquiet : world.Undisturbed (context.Involved world file cache)) :
    ∃ own request files written,
      context.Answered world file text cache own request files written := by
  obtain ⟨source, hsource⟩ := h.given
  obtain ⟨own, request, hasks, hnamed⟩ := h.asks
  have hasked : World.Keeps (context.Involved world file cache) world (context.asked world) :=
    (context.agree_asking hsource world world
      (World.alike_of_undisturbed (.refl world) hquiet hquiet)).2.left
  have hheard : ((context.asked world).hearing request).Shows (context.Involved world file cache)
      world.files := hasked.shows.congr rfl rfl rfl
  have hwritable : ((context.asked world).hearing request).files.Writable cache := h.writable
  obtain ⟨files, written, hwrite, hwrote, hfacts, hshows⟩ :=
    Session.exists_run_writeText_undisturbed hwritable hheard.undisturbed .temporary text
  have hrun : context.assemble.run.run world =
      (context.complete own (some text)).run.run written := by
    refine run_assemble hasks (Provider.run_fetch_text hnamed h.named ?_ ?_ hwrite)
    · rw [hasked.replies, h.answered]
    · rw [result_resolve_hearing hasked.toSameSetting, h.resolved]
  exact ⟨own, request, files, written, hasks, hnamed, hasked, hwrote,
    (World.sameFacts_hearing _ request).symm.trans hfacts, hshows, hrun⟩

namespace Answered

variable (h : context.Answered world file text cache own request files written)

include h

lemma setting : written.SameSetting world :=
  h.facts.toSameSetting.symm.trans h.asked.toSameSetting

lemma override {path : Path} (hpath : context.overridePath written = .ok (some path)) :
    context.Involved world file cache path :=
  .override (by rw [← hpath, context.overridePath_congr h.setting])

/-- What follows the answer leaves the places as they were written. -/
lemma ends (hunbuilt : context.loaded = none) :
    World.Keeps (context.Involved world file cache) written
      (context.configuration.run.run world).2 := by
  rw [run_configuration hunbuilt, h.run]
  exact (context.agree_complete own (some text) (fun _ => h.override) (fun _ _ => rfl) written
    written (World.alike_of_undisturbed (.refl written) h.shows.undisturbed
      h.shows.undisturbed)).2.left

lemma content : written.files.get? cache = some (.file (text.flatMap Encoding.utf8Bytes)) :=
  (h.shows.node cache .cache).trans h.wrote.node

/-- In a world with the same facts a later load asks the same. -/
lemma asks_later {source : Text} (hsource : context.text = some source)
    (hquiet : world.Undisturbed (context.Involved world file cache))
    (hfacts : world.SameFacts later)
    (hlater : later.Undisturbed (context.Involved world file cache)) :
    (context.asking.run.run later).1 = .ok (own, some request) ∧
      World.Keeps (context.Involved world file cache) later (context.asked later) ∧
      written.SameFacts ((context.asked later).hearing request) := by
  obtain ⟨hsame, halike⟩ := context.agree_asking hsource world later
    (World.alike_of_undisturbed hfacts hquiet hlater)
  have hwritten : written.SameFacts (context.asked later) := h.facts.symm.trans halike.facts
  exact ⟨hsame.symm.trans h.asks, halike.right,
    hwritten.trans (World.sameFacts_hearing _ request).symm⟩

/-- What was there after the first load is there in a world that looks the same. -/
lemma isThere_later (hunbuilt : context.loaded = none)
    (hthere : ((Session.isThere file).run.run (context.configuration.run.run world).2).1 = .ok true)
    (hfacts : written.SameFacts later)
    (hnode : ∀ place, context.Involved world file cache place →
      later.files.get? place = (context.configuration.run.run world).2.files.get? place) :
    ((Session.isThere file).run.run later).1 = .ok true := by
  have hsetting : later.SameSetting written := hfacts.toSameSetting.symm
  rw [← hthere]
  refine Session.result_isThere_congr
    (hsetting.trans (h.ends hunbuilt).toSameSetting.symm) fun place hplace => ?_
  exact hnode place (.way (((hsetting.trans h.setting).passes file place).1 hplace))

end Answered

end

/-- Under a straight name the cache is there after the load that wrote it. -/
theorem isThere_of_straight (h : context.Asks world file text cache)
    (hquiet : world.Undisturbed (context.Involved world file cache))
    (hsound : (context.asked world).files.Sound) (hstraight : world.Straight file) :
    ((Session.isThere file).run.run (context.configuration.run.run world).2).1 = .ok true := by
  obtain ⟨own, request, files, written, hfirst⟩ := h.exists_answered hquiet
  have hend := hfirst.ends h.unbuilt
  obtain rfl : cache = Path.ofText world.directory file := by
    have hresolved := h.resolved
    rw [hstraight.run_resolve] at hresolved
    exact (Except.ok.inj hresolved).symm
  -- the way leads to the cache in the files as they were written
  have hput : World.Straight { world with files } file :=
    ⟨hstraight.nameable, hstraight.plain, hstraight.forward, hstraight.short, hstraight.shortNames⟩
  have hwritten : ((Session.isThere file).run.run { world with files }).1 = .ok true := by
    rw [hput.result_isThere fun place => hfirst.wrote.directory hsound h.writable.parent,
      FileTree.contains, hfirst.wrote.node]
    rfl
  rw [← hwritten]
  have hsetting : (context.configuration.run.run world).2.SameSetting world :=
    hend.toSameSetting.trans hfirst.setting
  have hsettingPut : (context.configuration.run.run world).2.SameSetting { world with files } :=
    ⟨hsetting.machine, hsetting.processEnvironment, hsetting.directory, hsetting.registry⟩
  refine Session.result_isThere_congr hsettingPut fun place hplace => ?_
  have hpassed : context.Involved world file (Path.ofText world.directory file) place :=
    .way ((hsetting.passes file place).1 hplace)
  exact (hend.shows.node place hpassed).trans (hfirst.shows.node place hpassed)

/-- After a load in which a provider answered, a later one that gets no answer comes to the same from
the cache: the same entries and macros, or the same failure at the same line. -/
theorem configuration_from_cache (h : context.Asks world file text cache)
    (hquiet : world.Undisturbed (context.Involved world file cache))
    (hthere : ((Session.isThere file).run.run (context.configuration.run.run world).2).1 = .ok true)
    (hfacts : world.SameFacts later)
    (hlater : later.Shows (context.Involved world file cache)
      (context.configuration.run.run world).2.files)
    (hreply : ∀ text, later.replies.head? ≠ some (.text text)) :
    (context.configuration.run.run later).1 = (context.configuration.run.run world).1 := by
  obtain ⟨own, request, files, written, hfirst⟩ := h.exists_answered hquiet
  obtain ⟨source, hsource⟩ := h.given
  obtain ⟨hasks, hkeeps, hfactsHeard⟩ :=
    hfirst.asks_later hsource hquiet hfacts hlater.undisturbed
  set heard := (context.asked later).hearing request with hheard
  have hshows : heard.Shows (context.Involved world file cache) later.files :=
    hkeeps.shows.congr rfl rfl rfl
  -- all that is involved looks there as the first load left it, and as it was when it went on
  have hnode : ∀ place, context.Involved world file cache place →
      heard.files.get? place = (context.configuration.run.run world).2.files.get? place :=
    fun place hplace => (hshows.node place hplace).trans (hlater.node place hplace)
  have hsame : ∀ place, context.Involved world file cache place →
      written.files.get? place = heard.files.get? place :=
    fun place hplace =>
      ((hnode place hplace).trans ((hfirst.ends h.unbuilt).shows.node place hplace)).symm
  -- so the answer is found
  have hunanswered : ∀ answer, (context.asked later).replies.head? ≠ some (.text answer) :=
    fun answer hanswer => hreply answer (hkeeps.replies ▸ hanswer)
  have hresolved : ((Session.resolve file).run.run heard).1 = .ok cache := by
    rw [hheard, result_resolve_hearing (hkeeps.toSameSetting.trans hfacts.toSameSetting.symm),
      h.resolved]
  have hfound : ((Session.isThere file).run.run heard).1 = .ok true :=
    hfirst.isThere_later h.unbuilt hthere hfactsHeard hnode
  have hcontent : heard.files.get? cache = some (.file (text.flatMap Encoding.utf8Bytes)) :=
    (hsame cache .cache).symm.trans hfirst.content
  have hsecond : context.assemble.run.run later =
      (context.complete own (some text)).run.run heard := by
    rw [← complete_normalizeNewlines]
    exact run_assemble hasks (Provider.run_fetch_cached hfirst.named h.named hunanswered hresolved
      hfound hcontent)
  -- and both loads end alike
  have hcomplete := (context.agree_complete own (some text) (fun _ => hfirst.override) hsame written
    heard (World.alike_of_undisturbed hfactsHeard hfirst.shows.undisturbed hshows.undisturbed)).1
  rw [run_configuration h.unbuilt, run_configuration h.unbuilt, hfirst.run, hsecond, hcomplete]

/-- A context whose text names a provider and a cache file. -/
def remoteContext (file : Text) : Context where
  text := some ("Config.CustomProvider=remote:Source\nConfig.CacheFile=".toList ++ file)
  environment := some {}

/-- A world with a provider that answers once. -/
def remoteWorld (answer : Text) : World :=
  { (default : World) with
    registry.catalogue :=
      [⟨"remote".toList, "Source".toList, ⟨"remote".toList, "Source".toList⟩, true⟩]
    replies := [.text answer] }

/-- A world as a first load left it, in which nothing was asked yet and the provider has no answer. -/
def remoteWorldAfter (file answer : Text) : World :=
  { remoteWorld answer with
    files := ((remoteContext file).configuration.run.run (remoteWorld answer)).2.files
    replies := [.nothing] }

/-- Lines that end in all three ways, in a block and outside. -/
def remoteText : Text := "k = 1\rblock = \x7b\x7b\r\nfirst\rsecond\n\x7d\x7d\r\nmore = 2".toList

/-- Asking writes nothing. -/
lemma files_asked_remoteContext :
    ((remoteContext "cache.ini".toList).asked (remoteWorld remoteText)).files = {} := by
  decide +kernel

lemma asks_remoteContext :
    (remoteContext "cache.ini".toList).Asks (remoteWorld remoteText) "cache.ini".toList remoteText
      ["cache.ini".toList] where
  unbuilt := rfl
  given := ⟨_, rfl⟩
  asks := by
    have hasks : ((remoteContext "cache.ini".toList).asking.run.run (remoteWorld remoteText)).1.map
        (fun asking => asking.2.map Request.cacheFile) = .ok (some (some "cache.ini".toList)) := by
      decide +kernel
    rcases hrun : ((remoteContext "cache.ini".toList).asking.run.run (remoteWorld remoteText)).1 with
      failure | ⟨own, _ | request⟩ <;> rw [hrun] at hasks
    · cases hasks
    · cases hasks
    · exact ⟨own, request, rfl, Option.some.inj (Except.ok.inj hasks)⟩
  named := by decide
  resolved := by rfl
  writable := by
    rw [files_asked_remoteContext]
    exact ⟨⟨false, by decide⟩, by decide, by decide, by decide⟩
  answered := rfl

/-- The cache gives the block and the entries of a text with line breaks of all kinds. -/
theorem configuration_from_cache_remote :
    ((remoteContext "cache.ini".toList).configuration.run.run
        (remoteWorldAfter "cache.ini".toList remoteText)).1 =
      ((remoteContext "cache.ini".toList).configuration.run.run (remoteWorld remoteText)).1 ∧
    ((remoteContext "cache.ini".toList).configuration.run.run
        (remoteWorldAfter "cache.ini".toList remoteText)).1.map
          (fun access => access.1.config.entries none) =
      .ok [(['k'], ['1']), ("block".toList, "first\r\nsecond".toList), ("more".toList, ['2'])] := by
  have hquiet : ∀ {places : Path → Prop}, (remoteWorld remoteText).Undisturbed places :=
    World.undisturbed_of_silent rfl rfl
  have hstraight : (remoteWorld remoteText).Straight "cache.ini".toList :=
    ⟨by decide, by rfl, by decide, by decide, by decide⟩
  have hsound : ((remoteContext "cache.ini".toList).asked (remoteWorld remoteText)).files.Sound := by
    rw [files_asked_remoteContext]
    exact FileTree.sound_empty
  have hfacts : (remoteWorld remoteText).SameFacts (remoteWorldAfter "cache.ini".toList remoteText) :=
    ⟨⟨rfl, rfl, rfl, rfl⟩, rfl⟩
  have hlater : ∀ {places : Path → Prop}, (remoteWorldAfter "cache.ini".toList remoteText).Shows
      places ((remoteContext "cache.ini".toList).configuration.run.run
        (remoteWorld remoteText)).2.files :=
    ⟨World.undisturbed_of_silent rfl rfl, fun _ _ => rfl⟩
  have hreply : ∀ text,
      (remoteWorldAfter "cache.ini".toList remoteText).replies.head? ≠ some (.text text) := by
    rintro text ⟨⟩
  have hsame := configuration_from_cache asks_remoteContext hquiet
    (isThere_of_straight asks_remoteContext hquiet hsound hstraight) hfacts hlater hreply
  refine ⟨hsame, ?_⟩
  rw [hsame]
  decide +kernel

/-- A name that steps back out of a missing directory hides the cache: it was written, and the text
of the context is all that a later load comes to. -/
theorem configuration_hiddenCache :
    ((remoteContext "new/../c.ini".toList).configuration.run.run (remoteWorld "k = 1".toList)).1.map
        (fun access => access.1.config.entries none) = .ok [(['k'], ['1'])] ∧
      (remoteWorldAfter "new/../c.ini".toList "k = 1".toList).files.get? ["c.ini".toList] =
        some (.file ("k = 1".toList.flatMap Encoding.utf8Bytes)) ∧
      ((remoteContext "new/../c.ini".toList).configuration.run.run
        (remoteWorldAfter "new/../c.ini".toList "k = 1".toList)).1.map
          (fun access => access.1.config.entries none) =
        .ok [("Config.CustomProvider".toList, "remote:Source".toList),
          ("Config.CacheFile".toList, "new/../c.ini".toList)] := by
  decide +kernel

end Context

end Keyfile
