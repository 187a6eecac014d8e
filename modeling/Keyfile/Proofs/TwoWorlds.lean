import Keyfile.Configuration.Context
import Keyfile.Proofs.LineBreaks
import Keyfile.Proofs.Overriding
import Keyfile.Proofs.Simulation
import Keyfile.Proofs.Undisturbed

/-!
# Sessions in two worlds

What is loaded and what is answered depends on the facts of a world: its machine, the process
environment, the working directory, the registry and the identifiers given so far. So in two worlds
with the same facts a load comes to the same, whatever their files are and whatever their loggers
write to them.
-/

namespace Keyfile

namespace World

/-- Two worlds have the same machine, process environment, working directory and registry. -/
structure SameSetting (world other : World) : Prop where
  machine : world.machine = other.machine
  processEnvironment : world.processEnvironment = other.processEnvironment
  directory : world.directory = other.directory
  registry : world.registry = other.registry

/-- The facts of two worlds are the same: their settings and the identifiers given so far. -/
structure SameFacts (world other : World) : Prop extends SameSetting world other where
  identifiers : world.identifiers = other.identifiers

/-- What a session keeps of the world it began in: the setting, the replies that wait, and how some
places look. -/
structure Keeps (places : Path → Prop) (before world : World) : Prop
    extends SameSetting world before where
  replies : world.replies = before.replies
  shows : world.Shows places before.files

/-- Two worlds to start from, and the places that are looked at. -/
structure Comparison where
  places : Path → Prop
  left : World
  right : World

/-- Two worlds with the same facts, each of which keeps what counts of the one it started from. -/
structure Alike (comparison : Comparison) (world other : World) : Prop where
  facts : world.SameFacts other
  left : Keeps comparison.places comparison.left world
  right : Keeps comparison.places comparison.right other

variable {comparison : Comparison} {places : Path → Prop} {before world other third : World}

lemma SameSetting.symm (h : world.SameSetting other) : other.SameSetting world :=
  ⟨h.machine.symm, h.processEnvironment.symm, h.directory.symm, h.registry.symm⟩

lemma SameSetting.trans (h : world.SameSetting other) (hthird : other.SameSetting third) :
    world.SameSetting third :=
  ⟨h.machine.trans hthird.machine, h.processEnvironment.trans hthird.processEnvironment,
    h.directory.trans hthird.directory, h.registry.trans hthird.registry⟩

lemma SameSetting.homeOf (h : world.SameSetting other) : world.homeOf = other.homeOf := by
  funext user
  rw [World.homeOf, World.homeOf, h.machine, h.processEnvironment]

lemma SameFacts.symm (h : world.SameFacts other) : other.SameFacts world :=
  ⟨h.toSameSetting.symm, h.identifiers.symm⟩

lemma SameFacts.trans (h : world.SameFacts other) (hthird : other.SameFacts third) :
    world.SameFacts third :=
  ⟨h.toSameSetting.trans hthird.toSameSetting, h.identifiers.trans hthird.identifiers⟩

lemma SameFacts.refl (world : World) : world.SameFacts world :=
  ⟨⟨rfl, rfl, rfl, rfl⟩, rfl⟩

lemma sameFacts_deliver (world : World) (record : Log.Record) :
    (world.deliver record).SameFacts world :=
  ⟨⟨rfl, rfl, rfl, rfl⟩, rfl⟩

lemma Undisturbed.keeps (h : world.Undisturbed places) : Keeps places world world :=
  ⟨(SameFacts.refl world).toSameSetting, rfl, h.shows⟩

lemma Keeps.deliver (h : Keeps places before world) (event : Event) :
    Keeps places before (world.deliver event.toRecord) :=
  ⟨(sameFacts_deliver world _).toSameSetting.trans h.toSameSetting, h.replies,
    h.shows.deliver event⟩

lemma Keeps.identified (h : Keeps places before world) (identifiers : Nat) :
    Keeps places before { world with identifiers } :=
  ⟨⟨h.machine, h.processEnvironment, h.directory, h.registry⟩, h.replies,
    h.shows.congr rfl rfl rfl⟩

/-- Worlds with the same facts are alike when both begin. -/
lemma alike_of_undisturbed (hfacts : world.SameFacts other) (h : world.Undisturbed places)
    (hother : other.Undisturbed places) : Alike ⟨places, world, other⟩ world other :=
  ⟨hfacts, h.keeps, hother.keeps⟩

lemma Alike.deliver (h : Alike comparison world other) (event : Event) :
    Alike comparison (world.deliver event.toRecord) (other.deliver event.toRecord) :=
  ⟨(sameFacts_deliver world _).trans (h.facts.trans (sameFacts_deliver other _).symm),
    h.left.deliver event, h.right.deliver event⟩

end World

namespace Session

variable {R : World → World → Prop} {α β : Type}

/-- Two sessions that come to the same in related worlds and leave related worlds. -/
def Agree (R : World → World → Prop) (x y : Session α) : Prop :=
  ∀ world other, R world other → (x.run.run world).1 = (y.run.run other).1 ∧
    R (x.run.run world).2 (y.run.run other).2

namespace Agree

lemma of_pure (a : α) : Agree R (pure a) (pure a) :=
  fun _ _ h => ⟨rfl, h⟩

lemma of_throw (failure : Failure) : Agree R (throw failure : Session α) (throw failure) :=
  fun _ _ h => ⟨rfl, h⟩

lemma of_except {ε : Type} (failure : ε → Failure) (result : Except ε α) :
    Agree R (ofExcept failure result) (ofExcept failure result) :=
  fun _ _ h => ⟨rfl, h⟩

lemma bind {x y : Session α} {f g : α → Session β} (hx : Agree R x y)
    (hf : ∀ a, Agree R (f a) (g a)) : Agree R (x >>= f) (y >>= g) := by
  intro world other h
  obtain ⟨hresult, hafter⟩ := hx world other h
  rw [run_bind, run_bind]
  rcases hrun : x.run.run world with ⟨failure | a, after⟩ <;> rw [hrun] at hresult hafter <;>
    rcases hrun' : y.run.run other with ⟨failure' | a', after'⟩ <;>
    rw [hrun'] at hresult hafter <;> cases hresult
  · exact ⟨rfl, hafter⟩
  · exact hf a after after' hafter

/-- A session that looks at related worlds and sees the same goes on alike. -/
lemma get_bind {f g : World → Session α} (hsame : ∀ world other, R world other → f world = g other)
    (h : ∀ world, Agree R (f world) (f world)) : Agree R (get >>= f) (get >>= g) := by
  intro world other hrelated
  have hrun : ((get >>= g : Session α)).run.run other = (f world).run.run other := by
    rw [hsame world other hrelated]
    rfl
  rw [hrun]
  exact h world world other hrelated

end Agree

end Session

namespace World

variable (comparison : Comparison)

/-- Agreeing in worlds that are alike is kept by all the ways of loading. -/
def agreeing : Simulation Session Session where
  rel x y := Session.Agree (Alike comparison) x y
  pure a := .of_pure a
  bind hx hf := hx.bind hf
  record event _ _ h := ⟨rfl, h.deliver event⟩

end World

section Answers

variable {comparison : World.Comparison}

open Session (Agree)
open World (Alike)

lemma agree_network : Agree (Alike comparison) network network := by
  refine .get_bind (fun world other h => ?_) fun _ => .of_except _ _
  rw [h.facts.machine]

lemma agree_subnet : Agree (Alike comparison) subnet subnet := by
  refine agree_network.bind fun found => ?_
  obtain ⟨address, netmask⟩ := found
  dsimp only
  split
  · exact (Agree.of_throw _).bind fun _ => by split <;> first | exact .of_pure _ | exact .of_throw _
  · split
    · exact .of_pure _
    · exact .of_throw _

lemma agree_newIdentifier : Agree (Alike comparison) newIdentifier newIdentifier := by
  refine .get_bind (fun world other h => ?_) fun world => ?_
  · rw [h.facts.identifiers]
  · refine .bind (fun _ _ h => ⟨rfl, ?_⟩) fun _ => .of_pure _
    exact ⟨⟨⟨h.facts.machine, h.facts.processEnvironment, h.facts.directory, h.facts.registry⟩, rfl⟩,
      h.left.identified _, h.right.identified _⟩

lemma agree_programDirectory :
    Agree (Alike comparison) programDirectory programDirectory := by
  refine .get_bind (fun world other h => ?_) fun world => ?_
  · rw [h.facts.machine, h.facts.directory]
  · split
    · exact .of_pure _
    · split
      · exact .of_throw _
      · exact .of_pure _

variable (environment : Environment)

/-- A look at the machine. -/
lemma agree_machine {α : Type} (look : Machine → α) :
    Agree (Alike comparison) (do return look (← get).machine)
      (do return look (← get).machine) := by
  refine .get_bind (fun world other h => ?_) fun _ => .of_pure _
  rw [h.facts.machine]

lemma agree_server : Agree (Alike comparison) environment.server environment.server := by
  unfold Environment.server
  split
  · exact agree_machine Machine.node
  · exact agree_machine Machine.node
  · exact .of_pure _

lemma agree_builtin (builtin : Builtin) :
    Agree (Alike comparison) (environment.builtin builtin)
      (environment.builtin builtin) := by
  cases builtin with
  | temporary => exact agree_machine fun machine => some machine.temporary
  | system => exact agree_machine fun machine => some machine.system
  | machineName => exact agree_machine fun machine => some machine.node
  | hostname => exact agree_machine fun machine => some machine.hostname
  | serverId => exact (agree_server environment).bind fun _ => .of_pure _
  | processorCount =>
    exact agree_machine fun machine =>
      some (Text.ofInt (if machine.processors = 0 then 1 else machine.processors))
  | address => exact agree_network.bind fun _ => .of_pure _
  | netmask => exact agree_network.bind fun _ => .of_pure _
  | subnet => exact agree_subnet.bind fun _ => .of_pure _
  | programDirectory => exact agree_programDirectory.bind fun _ => .of_pure _
  | identifier => exact agree_newIdentifier.bind fun _ => .of_pure _
  | systemRoot | systemDirectory | isWindows | isUnix | is64Bit | dataDirectory | isDebug
  | isRelease => exact .of_pure _

/-- An environment answers in both worlds alike. -/
lemma agree_get? (name : Text) :
    Agree (Alike comparison) (environment.get? name) (environment.get? name) := by
  unfold Environment.get?
  split
  · exact .of_pure _
  · refine (agree_builtin environment _).bind fun found => ?_
    cases found <;> exact .of_pure _

end Answers

namespace Surrounded

variable {comparison : World.Comparison} (config : Surrounded)

open Session (Agree)
open World (Alike agreeing)

lemma answers_external :
    (agreeing comparison).Answers config.external config.external := by
  unfold external
  split
  · exact ⟨rfl, agree_get? config.environment⟩
  · exact .silent

lemma agree_ofLoad {α : Type} {x : ExceptT LoadError Session α}
    (h : (agreeing comparison).Matches x x) :
    Agree (Alike comparison) (Session.ofLoad x) (Session.ofLoad x) :=
  Agree.bind h fun _ => .of_except _ _

lemma agree_ofExpansion {α : Type} {x : ExceptT ExpansionError Session α}
    (h : (agreeing comparison).Matches x x) :
    Agree (Alike comparison) (Session.ofExpansion x) (Session.ofExpansion x) :=
  Agree.bind h fun _ => .of_except _ _

/-- A text is loaded alike. -/
lemma agree_load (text : Text) :
    Agree (Alike comparison) (config.load text) (config.load text) :=
  (agree_ofLoad (Simulation.matches_load config.answers_external config.config text)).bind
    fun _ => .of_pure _

lemma matches_expand (t : Text) :
    (agreeing comparison).Matches (config.config.expand config.external t)
      (config.config.expand config.external t) :=
  .expandWithin (.tables config.config.macros config.config.store.items config.answers_external) [] t

lemma agree_expand (t : Text) :
    Agree (Alike comparison) (config.expand t) (config.expand t) :=
  agree_ofExpansion (config.matches_expand t)

lemma agree_get? (scope : Option Text) (key : Text) :
    Agree (Alike comparison) (config.get? scope key) (config.get? scope key) := by
  apply agree_ofExpansion
  unfold Configuration.get?
  split
  · exact .of_pure none
  · exact (config.matches_expand _).bind fun _ => .of_pure _

end Surrounded

end Keyfile
