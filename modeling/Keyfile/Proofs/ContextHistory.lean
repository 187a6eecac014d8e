import Keyfile.Configuration.Context
import Keyfile.Proofs.LineBreaks
import Keyfile.Proofs.Results
import Keyfile.Proofs.StraightNames
import Mathlib.Data.List.DropRight

/-!
# Histories of a context

A context is given texts and files in any order, is cleared and is asked for its configuration. What
it gives is what the first access that succeeded since the last other call made of its source, or
what it makes of the source now when there was none.
-/

namespace Keyfile

/-- What is done with a context. It can be asked for its configuration in any world. -/
inductive Context.Call
  | setText (text : Option Text)
  | setPath (path : Option Text)
  | append (text : Text)
  | clear
  | access (world : World)

/-- Where the source of a context comes from: a text, or a file with what was appended to it. -/
inductive Origin
  | nothing
  | text (text : Text)
  | file (name : Text) (added : List Text)

namespace Context

/-- The context after a call; an access that fails leaves it as it was. -/
def Call.apply (context : Context) : Call → Context
  | setText text => context.setText text
  | setPath path => context.setPath path
  | append text => context.append text
  | clear => context.clear
  | access world =>
    match (context.configuration.run.run world).1 with
    | .ok (_, owner) => owner
    | .error _ => context

def after (context : Context) (calls : List Call) : Context :=
  calls.foldl Call.apply context

def Call.world? : Call → Option World
  | access world => some world
  | setText _ | setPath _ | append _ | clear => none

/-- The worlds of the accesses since the last other call. -/
def accessesSince (calls : List Call) : List World :=
  (calls.rtakeWhile fun call => call.world?.isSome).filterMap Call.world?

def origin (context : Context) : Origin :=
  match context.text, context.path with
  | some text, _ => .text text
  | none, some name => .file name []
  | none, none => .nothing

/-- The building from a source text as that of a context which was given the text. -/
def buildFrom (context : Context) (source : Session Text) : Session Surrounded := do
  (context.setText (some (← source))).assemble

/-- The configuration that is built from a source in a world, if it can be. -/
def builtIn (context : Context) (source : Session Text) (world : World) : Option Surrounded :=
  ((context.buildFrom source).run.run world).1.toOption

end Context

namespace Origin

open Text (crlf)

def next (origin : Origin) : Context.Call → Origin
  | .setText none | .setPath none => .nothing
  | .setText (some source) => .text source
  | .setPath (some name) => .file name []
  | .append added =>
    match origin with
    | .nothing => .text added
    | .text before => .text (before ++ crlf ++ added)
    | .file name before => .file name (before ++ [added])
  | .clear | .access _ => origin

/-- The source text: that of a file is empty when the file is missing. -/
def content : Origin → Session Text
  | .nothing => return []
  | .text source => return source
  | .file name added => do
    let path ← Session.resolve name
    let start ← if (← get).files.contains path then Session.readText path else pure []
    return Text.join crlf (start :: added)

/-- The text that a context keeps. What was appended to a file stands there without the file. -/
def text? : Origin → Option Text
  | .nothing | .file _ [] => none
  | .text source => some source
  | .file _ (first :: rest) => some (Text.join crlf (first :: rest))

def name? : Origin → Option Text
  | .nothing | .text _ => none
  | .file name _ => some name

/-- The source text that a context makes of its origin. -/
def taken (origin : Origin) : Session Text :=
  Context.sourceText { text := origin.text?, path := origin.name? }

/-- Nothing was appended to the file of an origin, and its name is read as it is found. -/
def Whole (world : World) : Origin → Prop
  | .nothing | .text _ => True
  | .file name added => added = [] ∧ world.Finds name

/-- A context makes of its origin what the origin says, while nothing was appended to a file. -/
lemma Whole.run_taken {origin : Origin} {world : World} (h : origin.Whole world) :
    origin.taken.run.run world = origin.content.run.run world := by
  cases origin with
  | nothing => rfl
  | text source => rfl
  | file name added =>
    obtain ⟨rfl, path, hresolve, hleads⟩ := h
    have htaken : (file name []).taken.run.run world =
        ((do
          if ← Session.ofExcept .file (world.files.leadsTo world.directory name) then
            Session.readText (← Session.resolve name)
          else return []) : Session Text).run.run world := rfl
    have hcontent : (file name []).content.run.run world =
        ((do
          let start ← if world.files.contains path then Session.readText path else pure []
          return Text.join crlf [start]) : Session Text).run.run world := by
      rw [content, Session.run_bind_of_ok hresolve]
      rfl
    have hjoin : ∀ start, Text.join crlf [start] = start := fun _ => rfl
    rw [htaken, hleads, hcontent]
    simp only [hjoin, bind_pure]
    cases world.files.contains path with
    | false => rfl
    | true => exact Session.run_bind_of_ok hresolve Session.readText

end Origin

namespace Context

variable {start context : Context}

/-- A context keeps what it started with, its origin and the configuration that was built from it,
if there is one. -/
structure Keeps (start : Context) (origin : Origin) (built : Option Surrounded)
    (context : Context) : Prop where
  overrideVariable : context.overrideVariable = start.overrideVariable
  usesEnvironment : context.usesEnvironment = start.usesEnvironment
  environment : context.environment = start.environment
  text : context.text = origin.text?
  path : context.text = none → context.path = origin.name?
  loaded : context.loaded = built

variable {origin : Origin} {built : Option Surrounded}

lemma keeps_start (hnew : start.loaded = none) : Keeps start start.origin none start := by
  obtain ⟨text, path⟩ := start
  cases text with
  | none => cases path <;> exact ⟨rfl, rfl, rfl, rfl, fun _ => rfl, hnew⟩
  | some text => exact ⟨rfl, rfl, rfl, rfl, (nomatch ·), hnew⟩

/-- A call that is no access changes the origin and drops what was built. -/
lemma Keeps.change (h : Keeps start origin built context) {call : Call}
    (hcall : call.world? = none) : Keeps start (origin.next call) none (call.apply context) := by
  have hkept : ∀ {text path : Option Text} {next : Origin}, text = next.text? →
      (text = none → path = next.name?) →
      Keeps start next none { context with text, path, loaded := none } :=
    fun htext hpath => ⟨h.overrideVariable, h.usesEnvironment, h.environment, htext, hpath, rfl⟩
  cases call with
  | setText text => cases text <;> exact hkept rfl fun _ => rfl
  | setPath path => cases path <;> exact hkept rfl fun _ => rfl
  | clear => exact hkept h.text h.path
  | access world => cases hcall
  | append added =>
    refine hkept ?_ (nomatch ·)
    rw [h.text]
    cases origin with
    | nothing => rfl
    | text source => rfl
    | file name before =>
      cases before with
      | nil => rfl
      | cons first rest =>
        have hjoin := Text.join_append_singleton (List.cons_ne_nil first rest) added
        exact congrArg some hjoin.symm

/-- A context builds from its origin as the one it started as does. -/
lemma Keeps.assemble (h : Keeps start origin built context) :
    context.assemble = start.buildFrom origin.taken := by
  have hsource : context.sourceText = origin.taken := by
    rw [Origin.taken, sourceText, sourceText, h.text]
    dsimp only
    cases htext : origin.text? with
    | none => rw [h.path (h.text.trans htext)]
    | some source => rfl
  have hfresh : ∀ source, context.fresh = (start.setText source).fresh := by
    intro source
    rw [fresh, fresh, h.environment, h.usesEnvironment]
    rfl
  have hbuild : ∀ source, context.build = (start.setText source).build := by
    intro source
    funext text
    rw [build, build, hfresh source]
  have hoverride : ∀ source, context.override? = (start.setText source).override? := by
    intro source
    rw [override?, override?, h.overrideVariable, hfresh source]
    rfl
  rw [Context.assemble, hsource, buildFrom]
  apply bind_congr
  intro source
  have hgiven : (start.setText (some source)).sourceText = pure source := rfl
  rw [Context.assemble, hbuild (some source), hoverride (some source), hgiven, pure_bind]

lemma Keeps.configuration (h : Keeps start origin none context) :
    context.configuration = do
      let loaded ← start.buildFrom origin.taken
      return (loaded, { context with loaded := some loaded, builds := context.builds + 1 }) := by
  rw [Context.configuration, h.loaded, ← h.assemble]

/-- An access keeps the origin and what was built, and builds where nothing was. -/
lemma Keeps.access (h : Keeps start origin built context) (world : World) :
    Keeps start origin (built.or (start.builtIn origin.taken world))
      ((Call.access world).apply context) := by
  cases built with
  | some config =>
    have hrun : context.configuration.run.run world = (.ok (config, context), world) := by
      rw [Context.configuration, h.loaded]
      rfl
    rw [Call.apply, hrun]
    exact h
  | none =>
    rw [Call.apply, h.configuration, Session.run_bind, Option.none_or, builtIn]
    rcases (start.buildFrom origin.taken).run.run world with ⟨failure | config, after⟩
    · exact h
    · exact ⟨h.overrideVariable, h.usesEnvironment, h.environment, h.text, h.path, rfl⟩

lemma accessesSince_append_access (calls : List Call) (world : World) :
    accessesSince (calls ++ [.access world]) = accessesSince calls ++ [world] := by
  rw [accessesSince, List.rtakeWhile_concat_pos _ _ _ rfl, List.filterMap_append]
  rfl

lemma accessesSince_append {call : Call} (h : call.world? = none) (calls : List Call) :
    accessesSince (calls ++ [call]) = [] := by
  rw [accessesSince, List.rtakeWhile_concat_neg _ _ _ (by simp [h])]
  rfl

/-- After any calls the context keeps what the first successful access since the last other call
built. -/
lemma keeps_after (hnew : start.loaded = none) (calls : List Call) :
    Keeps start (calls.foldl Origin.next start.origin)
      ((accessesSince calls).findSome?
        (start.builtIn (calls.foldl Origin.next start.origin).taken)) (start.after calls) := by
  induction calls using List.reverseRecOn with
  | nil => exact keeps_start hnew
  | append_singleton calls call ih =>
    have hafter : start.after (calls ++ [call]) = call.apply (start.after calls) :=
      List.foldl_concat ..
    have horigin : (calls ++ [call]).foldl Origin.next start.origin =
        (calls.foldl Origin.next start.origin).next call := List.foldl_concat ..
    rw [hafter, horigin]
    cases hcall : call.world? with
    | none =>
      rw [accessesSince_append hcall]
      exact ih.change hcall
    | some world =>
      obtain rfl : call = .access world := by
        cases call <;> cases hcall
        rfl
      rw [accessesSince_append_access, List.findSome?_append, List.findSome?_singleton]
      exact ih.access world

/-- What a context gives after any calls: what the first successful access since the last other call
built, and it builds nothing then; or what it builds now from the source it has taken. -/
theorem configuration_after_calls_taken (hnew : start.loaded = none) (calls : List Call)
    (world : World) :
    match (accessesSince calls).findSome?
        (start.builtIn (calls.foldl Origin.next start.origin).taken) with
    | some config =>
      (start.after calls).configuration.run.run world = (.ok (config, start.after calls), world)
    | none =>
      (Prod.fst <$> (start.after calls).configuration).run.run world =
        (start.buildFrom (calls.foldl Origin.next start.origin).taken).run.run world := by
  have hkeeps := keeps_after hnew calls
  split
  · rename_i config hbuilt
    rw [hbuilt] at hkeeps
    rw [configuration, hkeeps.loaded]
    rfl
  · rename_i hbuilt
    rw [hbuilt] at hkeeps
    rw [hkeeps.configuration, map_bind]
    simp only [map_pure, bind_pure]

lemma run_buildFrom_whole {origin : Origin} {world : World} (h : origin.Whole world) :
    (start.buildFrom origin.taken).run.run world =
      (start.buildFrom origin.content).run.run world := by
  rw [buildFrom, buildFrom, Session.run_bind, Session.run_bind, h.run_taken]

/-- The configuration of a context is the one that its source makes, as the calls describe it, while
nothing was appended to a file: it was made at the first successful access since the last other
call, and is not made again, or it is made now. -/
theorem configuration_after_calls (hnew : start.loaded = none) (calls : List Call) (world : World)
    (hwhole : ∀ place ∈ world :: accessesSince calls,
      (calls.foldl Origin.next start.origin).Whole place) :
    match (accessesSince calls).findSome?
        (start.builtIn (calls.foldl Origin.next start.origin).content) with
    | some config =>
      (start.after calls).configuration.run.run world = (.ok (config, start.after calls), world)
    | none =>
      (Prod.fst <$> (start.after calls).configuration).run.run world =
        (start.buildFrom (calls.foldl Origin.next start.origin).content).run.run world := by
  obtain ⟨hnow, hbefore⟩ := List.forall_mem_cons.1 hwhole
  have hbuilt : ∀ places : List World,
      (∀ place ∈ places, (calls.foldl Origin.next start.origin).Whole place) →
      places.findSome? (start.builtIn (calls.foldl Origin.next start.origin).taken) =
        places.findSome? (start.builtIn (calls.foldl Origin.next start.origin).content) := by
    intro places hplaces
    induction places with
    | nil => rfl
    | cons place rest ih =>
      obtain ⟨hplace, hrest⟩ := List.forall_mem_cons.1 hplaces
      rw [List.findSome?_cons, List.findSome?_cons, ih hrest, builtIn, builtIn,
        run_buildFrom_whole hplace]
  have htaken := configuration_after_calls_taken hnew calls world
  rw [hbuilt _ hbefore, run_buildFrom_whole hnow] at htaken
  exact htaken

def fileContext : Context where
  path := some "a.ini".toList
  environment := some {}

/-- A world with a file of one entry. -/
def fileWorld : World :=
  { (default : World) with files := ⟨[(["a.ini".toList], .file ("a = 1".toList.flatMap
      Encoding.utf8Bytes))]⟩ }

def fileConfiguration : Surrounded where
  config := { store := .ofItems ⟨[("a".toList, ['1'])]⟩ }

/-- A text is appended and given up again for a file, which is asked for. -/
def fileCalls : List Call :=
  [.append "b = 2".toList, .setPath (some "a.ini".toList), .access fileWorld]

/-- The configuration of the file is given also where the file is gone. -/
theorem configuration_after_fileCalls :
    (fileContext.after fileCalls).configuration.run.run default =
      (.ok (fileConfiguration, fileContext.after fileCalls), default) := by
  have hwhole : ∀ place ∈ default :: accessesSince fileCalls,
      (fileCalls.foldl Origin.next fileContext.origin).Whole place := by
    intro place hplace
    rcases List.mem_pair.1 hplace with rfl | rfl <;>
      exact ⟨rfl, ["a.ini".toList], by rfl, by rfl⟩
  have hbuilt : (accessesSince fileCalls).findSome?
      (fileContext.builtIn (fileCalls.foldl Origin.next fileContext.origin).content) =
        some fileConfiguration := by decide +kernel
  have hafter := configuration_after_calls (by rfl) fileCalls default hwhole
  rw [hbuilt] at hafter
  exact hafter

/-- What is appended to a file takes the place of its entries. -/
theorem configuration_append_file :
    ((fileContext.after [.append "b = 2".toList]).configuration.run.run fileWorld).1.map
        (fun access => access.1.config.entries none) = .ok [("b".toList, ['2'])] ∧
      ((fileContext.buildFrom ([.append "b = 2".toList].foldl Origin.next
        fileContext.origin).content).run.run fileWorld).1.map
          (fun config => config.config.entries none) =
        .ok [("a".toList, ['1']), ("b".toList, ['2'])] := by
  decide +kernel

end Context

end Keyfile
