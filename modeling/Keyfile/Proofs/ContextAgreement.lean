import Keyfile.Proofs.Reloading
import Keyfile.Proofs.TwoWorlds

/-!
# Contexts in two worlds

Before its provider is asked, and again after it has answered, a load of a context comes to the same
in worlds with the same facts. The files have a say only through the override file: there it is
enough that its path looks the same.
-/

namespace Keyfile

namespace Session

variable {R : World → World → Prop} (hR : ∀ world other, R world other → world.SameSetting other)

include hR

lemma agree_expandHome (t : Text) : Agree R (expandHome t) (expandHome t) := by
  refine .get_bind (fun world other h => ?_) fun world => ?_
  · rw [(hR world other h).homeOf]
  · split
    · exact .of_pure _
    · split
      · exact .of_throw _
      · exact .of_throw _

lemma agree_resolve (t : Text) : Agree R (resolve t) (resolve t) := by
  refine (agree_expandHome hR t).bind fun t => ?_
  split
  · refine .get_bind (fun world other h => ?_) fun _ => .of_pure _
    rw [(hR world other h).directory]
  · exact .of_throw _

lemma agree_pathOfVariable? (name : Option Text) :
    Agree R (pathOfVariable? name) (pathOfVariable? name) := by
  unfold pathOfVariable?
  split
  · exact .of_pure none
  · exact .of_pure none
  · refine .get_bind (fun world other h => ?_) fun world => ?_
    · rw [(hR world other h).processEnvironment]
    · split
      · exact .of_pure none
      · exact .of_pure none
      · exact (agree_resolve hR _).bind fun path => .of_pure (some path)

end Session

/-- Where a path looks the same, the same is read, or nothing is. -/
lemma FileTree.read_congr {tree other : FileTree} {path : Path}
    (h : tree.get? path = other.get? path) :
    (∃ content, tree.read path = .ok content ∧ other.read path = .ok content) ∨
      ∃ error error', tree.read path = .error error ∧ other.read path = .error error' := by
  rw [read, read, ← h]
  rcases tree.get? path with _ | content | _
  · exact .inr ⟨_, _, rfl, rfl⟩
  · exact .inl ⟨content, rfl, rfl⟩
  · exact .inr ⟨_, _, rfl, rfl⟩

namespace Provider

variable {comparison : World.Comparison} (own : Surrounded)

open Session (Agree)
open World (Alike)

/-- What a provider is asked with, none when the configuration names no provider. -/
def request? : Session (Option Request) := do
  match ← own.get? none providerKey with
  | none | some [] => return none
  | some name =>
    let _ ← find name
    return some (← requestOf own)

lemma customText_eq_request? :
    customText own = (do
      match ← request? own with
      | none => return none
      | some request => fetch request) := by
  rw [customText, request?, bind_assoc]
  apply bind_congr
  intro name
  split
  · rfl
  · rfl
  · simp only [bind_assoc, pure_bind]

lemma agree_find (name : Text) : Agree (Alike comparison) (find name) (find name) := by
  refine .get_bind (fun world other h => ?_) fun world => ?_
  · rw [h.facts.registry]
  · split
    · exact .of_throw _
    · split
      · exact .of_pure _
      · exact .of_throw _

lemma agree_requestOf : Agree (Alike comparison) (requestOf own) (requestOf own) := by
  have htext : ∀ name : String, Agree (Alike comparison)
      (do return (← own.get? none name.toList).getD [])
      (do return (← own.get? none name.toList).getD []) :=
    fun name => (own.agree_get? none _).bind fun _ => .of_pure _
  unfold requestOf
  refine (htext _).bind fun settings => ?_
  refine (own.agree_get? none _).bind fun cacheFile => ?_
  refine (htext _).bind fun named => ?_
  -- the rest comes in both branches, after the name of the machine
  dsimp only
  split
  · refine (own.agree_expand _).bind fun machineName => ?_
    exact (htext _).bind fun _ => (htext _).bind fun _ => (htext _).bind fun _ => .of_pure _
  · refine (Agree.of_pure named).bind fun machineName => ?_
    exact (htext _).bind fun _ => (htext _).bind fun _ => (htext _).bind fun _ => .of_pure _

lemma agree_request? : Agree (Alike comparison) (request? own) (request? own) := by
  refine (own.agree_get? none _).bind fun name => ?_
  split
  · exact .of_pure none
  · exact .of_pure none
  · exact (agree_find _).bind fun _ => (agree_requestOf own).bind fun _ => .of_pure _

end Provider

namespace Context

variable {comparison : World.Comparison} (context : Context)

open Session (Agree)
open World (Alike)

/-- The part of a load before its provider is asked: its own configuration and the request. -/
def asking : Session (Surrounded × Option Request) := do
  let own ← context.build (← context.sourceText)
  return (own, ← Provider.request? own)

/-- The rest of a load: it builds from an answer, if there is one, and lays the override over it. -/
def complete (own : Surrounded) (answer : Option Text) : Session Surrounded := do
  let base ←
    match answer with
    | some text => context.build text
    | none => pure own
  match ← context.override? with
  | some layer => return { base with config := base.config.overlay layer }
  | none => return base

lemma assemble_eq_asking :
    context.assemble = (do
      let (own, request) ← context.asking
      let answer ←
        match request with
        | some request => Provider.fetch request
        | none => pure none
      context.complete own answer) := by
  simp only [assemble, asking, bind_assoc, pure_bind, Provider.customText_eq_request?]
  refine bind_congr fun source => bind_congr fun own => bind_congr fun request => ?_
  cases request with
  | none => rfl
  | some request => rfl

lemma agree_fresh : Agree (Alike comparison) context.fresh context.fresh := by
  unfold fresh
  split
  · exact (Agree.of_pure _).bind fun _ => .of_pure _
  · refine Agree.bind (.get_bind (fun world other h => ?_) fun _ => .of_pure _) fun _ => .of_pure _
    rw [h.facts.processEnvironment]

lemma agree_build (text : Text) :
    Agree (Alike comparison) (context.build text) (context.build text) :=
  context.agree_fresh.bind fun fresh => fresh.agree_load text

/-- The line breaks of a text make no difference to what is built from it. -/
lemma build_normalizeNewlines (text : Text) :
    context.build (Text.normalizeNewlines text) = context.build text := by
  have hprocess : ∀ (external : Source Session) (macros : Table) (store : Store),
      process external (Text.normalizeNewlines text) macros store =
        process external text macros store := by
    intro external macros store
    rw [process, process, statements_normalizeNewlines, Text.lines_normalizeNewlines]
  have hload : ∀ fresh : Surrounded,
      fresh.load (Text.normalizeNewlines text) = fresh.load text := by
    intro fresh
    rw [Surrounded.load, Surrounded.load, Configuration.load, Configuration.load, hprocess]
  simp only [build, hload]

lemma complete_normalizeNewlines (own : Surrounded) (text : Text) :
    context.complete own (some (Text.normalizeNewlines text)) =
      context.complete own (some text) := by
  rw [complete, complete, build_normalizeNewlines]

lemma agree_asking {source : Text} (htext : context.text = some source) :
    Agree (Alike comparison) context.asking context.asking := by
  have hsource : context.sourceText = pure source := by
    rw [sourceText, htext]
  rw [asking, hsource]
  refine (Agree.of_pure source).bind fun text => (context.agree_build text).bind fun own => ?_
  exact (Provider.agree_request? own).bind fun request => .of_pure _

lemma overridePath_congr {world other : World} (h : world.SameSetting other) :
    context.overridePath world = context.overridePath other :=
  (Session.agree_pathOfVariable? (fun _ _ h => h) context.overrideVariable world other h).1

/-- What is made of the override file's configuration, or of what kept it from being loaded. -/
def layered : Except Failure Surrounded → Except Failure (Option Configuration)
  | .ok layer => .ok (some layer.config)
  | .error failure =>
    if failure.isOfFiles || failure.isRefusal then .ok none else .error failure

lemma run_override?_of_path {world : World} {path : Path}
    (hpath : context.overridePath world = .ok (some path)) :
    (context.override?).run.run world =
      let loading := ((do (← context.fresh).loadFile path) : Session Surrounded).run.run world
      (layered loading.1, loading.2) := by
  have hlook : (Session.pathOfVariable? context.overrideVariable).run.run world =
      (context.overridePath world, world) :=
    (Session.looks_pathOfVariable? context.overrideVariable).run_eq world
  rw [hpath] at hlook
  rw [override?, Session.run_bind_of_ok hlook, Session.run_bind, Session.run_attempt]
  rcases ((do (← context.fresh).loadFile path) : Session Surrounded).run.run world with
    ⟨failure | layer, after⟩
  · dsimp only [layered]
    split <;> rfl
  · rfl

/-- A file is loaded alike where its path looks the same in both worlds, or fails in both for
reasons of the files. -/
lemma agree_loadFile_fresh {path : Path} (hplace : comparison.places path)
    (hsame : comparison.left.files.get? path = comparison.right.files.get? path)
    {world other : World} (h : Alike comparison world other) :
    let loading : Session Surrounded := do (← context.fresh).loadFile path
    layered (loading.run.run world).1 = layered (loading.run.run other).1 ∧
      Alike comparison (loading.run.run world).2 (loading.run.run other).2 := by
  have hnode : world.files.get? path = other.files.get? path := by
    rw [h.left.shows.node path hplace, h.right.shows.node path hplace, hsame]
  dsimp only
  rw [run_loadFile_fresh, run_loadFile_fresh]
  rcases FileTree.read_congr hnode with ⟨content, hread, hread'⟩ | ⟨error, error', hread, hread'⟩
  · rw [hread, hread']
    dsimp only
    cases Encoding.utf8.decode? content with
    | none => exact ⟨rfl, h⟩
    | some text =>
      have hrecord : Agree (Alike comparison) (Journal.record (.fileLoaded (Session.pathText path)))
          (Journal.record (.fileLoaded (Session.pathText path))) :=
        fun _ _ h => ⟨rfl, h.deliver _⟩
      obtain ⟨hresult, halike⟩ := (context.agree_build (Text.normalizeNewlines text)).bind
        (fun loaded => hrecord.bind fun _ => .of_pure loaded) world other h
      exact ⟨congrArg layered hresult, halike⟩
  · rw [hread, hread']
    refine ⟨?_, h⟩
    have hfailure : (Failure.file error).isOfFiles = true := FileTree.isOfFiles_of_read hread
    have hfailure' : (Failure.file error').isOfFiles = true := FileTree.isOfFiles_of_read hread'
    simp only [layered, hfailure, hfailure', Bool.true_or, if_true]

/-- The override file has the same say where its path looks the same in both worlds. -/
lemma agree_override?
    (hplaces : ∀ path, context.overridePath comparison.left = .ok (some path) →
      comparison.places path)
    (hsame : ∀ place, comparison.places place →
      comparison.left.files.get? place = comparison.right.files.get? place) :
    Agree (Alike comparison) context.override? context.override? := by
  intro world other h
  have hworld : context.overridePath world = context.overridePath comparison.left :=
    context.overridePath_congr h.left.toSameSetting
  have hother : context.overridePath other = context.overridePath comparison.left := by
    rw [← context.overridePath_congr h.facts.toSameSetting, hworld]
  have hlook : ∀ world, (Session.pathOfVariable? context.overrideVariable).run.run world =
      (context.overridePath world, world) :=
    (Session.looks_pathOfVariable? context.overrideVariable).run_eq
  rcases hpath : context.overridePath comparison.left with failure | _ | path
  · rw [override?, Session.run_bind, Session.run_bind, hlook, hlook, hworld, hother, hpath]
    exact ⟨rfl, h⟩
  · rw [override?, Session.run_bind, Session.run_bind, hlook, hlook, hworld, hother, hpath]
    exact ⟨rfl, h⟩
  · rw [context.run_override?_of_path (hworld.trans hpath),
      context.run_override?_of_path (hother.trans hpath)]
    exact context.agree_loadFile_fresh (hplaces path hpath) (hsame path (hplaces path hpath)) h

/-- What follows an answer comes to the same where the override file looks the same. -/
lemma agree_complete (own : Surrounded) (answer : Option Text)
    (hplaces : ∀ path, context.overridePath comparison.left = .ok (some path) →
      comparison.places path)
    (hsame : ∀ place, comparison.places place →
      comparison.left.files.get? place = comparison.right.files.get? place) :
    Agree (Alike comparison) (context.complete own answer) (context.complete own answer) := by
  have hlaid : ∀ base : Surrounded, Agree (Alike comparison)
      (do
        match ← context.override? with
        | some layer => return { base with config := base.config.overlay layer }
        | none => return base)
      (do
        match ← context.override? with
        | some layer => return { base with config := base.config.overlay layer }
        | none => return base) := by
    intro base
    refine (context.agree_override? hplaces hsame).bind fun layer => ?_
    cases layer with
    | some layer => exact .of_pure _
    | none => exact .of_pure base
  unfold complete
  cases answer with
  | some text => exact (context.agree_build text).bind hlaid
  | none => exact (Agree.of_pure own).bind hlaid

end Context

end Keyfile
