import Keyfile.Configuration.Surroundings
import Keyfile.Proofs.Outcomes
import Keyfile.Proofs.Returning
import Keyfile.Proofs.Simulation

/-!
# Loading in a session

A session that loads a source text with answers that need no world loads it as the computation
without effects does: to the same macros and the same store, or to the same error.
-/

namespace Keyfile

/-- A source of a session that lists the same names as one without effects and answers the same. -/
structure Source.Follows (source : Source Session) (other : Source Id) : Prop where
  names : source.names = other.names
  ask : ∀ name, (source.ask name).Returns (Id.run (other.ask name))

namespace Source.Follows

lemma silent : Source.Follows .silent .silent where
  names := rfl
  ask _ := Session.returns_pure none

end Source.Follows

/-- Returning what the other computation comes to is kept by all the ways of loading. -/
def Session.returning : Simulation Session Id where
  rel x y := x.Returns (Id.run y)
  pure a := Session.returns_pure a
  bind hx hf := hx.bind (hf _)
  record event := Session.returns_record event

variable {external : Source Session} {external' : Source Id}

lemma Source.Follows.answers (h : external.Follows external') :
    Session.returning.Answers external external' :=
  ⟨h.names, h.ask⟩

namespace Pass

lemma follows_define (pass : Pass) (name text : Text) :
    Follows (pass.define name text) (pass.define name text) :=
  (Follows.of_record _).bind fun _ => .of_pure _

lemma follows_run (h : external.Follows external') (numbered : List (Nat × Statement))
    (pass : Pass) : Follows (Pass.run external numbered pass) (Pass.run external' numbered pass) :=
  Simulation.matches_run h.answers numbered pass

end Pass

/-- Loading a source text in a session comes to what it comes to without effects. -/
lemma Configuration.follows_load (h : external.Follows external') (config : Configuration)
    (text : Text) : Follows (config.load external text) (config.load external' text) :=
  Simulation.matches_load h.answers config text

namespace Surrounded

lemma load_returns (loader : Surrounded) {text : Text} {config : Configuration}
    (h : Follows (loader.config.load loader.external text) (pure config)) :
    (loader.load text).Returns { loader with config } := by
  have hload : (Session.ofLoad (loader.config.load loader.external text)).Returns config :=
    Session.Returns.bind h (Session.returns_pure config)
  exact hload.bind (Session.returns_pure _)

lemma follows_load_silent (loader : Surrounded) {text : Text} {config : Configuration}
    (hoff : loader.usesEnvironment = false)
    (h : loader.config.load .silent text = (pure config : ExceptT LoadError Id Configuration)) :
    Follows (loader.config.load loader.external text) (pure config) := by
  have hexternal : loader.external = .silent := by rw [external, hoff]; rfl
  rw [hexternal, ← h]
  exact Configuration.follows_load Source.Follows.silent loader.config text

/-- What a session without an environment has loaded is what the source text makes of the
configuration without effects. -/
theorem load_eq_of_run {loader loaded : Surrounded} {text : Text} {world after : World}
    (hoff : loader.usesEnvironment = false)
    (h : (loader.load text).run.run world = (.ok loaded, after)) :
    loader.config.load .silent text = (pure loaded.config : ExceptT LoadError Id Configuration) := by
  have hexternal : loader.external = .silent := by rw [external, hoff]; rfl
  obtain ⟨middle, hmiddle⟩ := Configuration.follows_load Source.Follows.silent loader.config text world
  rw [Surrounded.load, hexternal, Session.run_bind, Session.ofLoad,
    Session.run_bind_of_ok hmiddle] at h
  rcases ok_or_throw (loader.config.load .silent text : ExceptT LoadError Id Configuration) with
    ⟨config, hconfig⟩ | ⟨error, herror⟩
  · rw [hconfig] at h ⊢
    cases h
    rfl
  · rw [herror] at h
    cases h

end Surrounded

end Keyfile
