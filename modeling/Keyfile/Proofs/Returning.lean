import Keyfile.Session.World
import Mathlib.Tactic.Common

/-!
# Sessions that return

A session returns a value when it does so in every world, whatever it does to the world. It follows
a computation without effects when it returns what the computation comes to; a session that only
keeps its journal does.
-/

namespace Keyfile

variable {ε α β : Type}

namespace Session

lemma run_bind (x : Session α) (f : α → Session β) (world : World) :
    (x >>= f).run.run world =
      match x.run.run world with
      | (.ok a, after) => (f a).run.run after
      | (.error failure, after) => (.error failure, after) := by
  have hbind : (x >>= f).run.run world =
      (ExceptT.bindCont f (x.run.run world).1).run (x.run.run world).2 := rfl
  rw [hbind]
  rcases x.run.run world with ⟨failure | a, after⟩ <;> rfl

lemma run_bind_of_ok {x : Session α} {world after : World} {a : α}
    (h : x.run.run world = (.ok a, after)) (f : α → Session β) :
    (x >>= f).run.run world = (f a).run.run after := by
  rw [run_bind, h]

/-- A session that returns a value in every world. -/
def Returns (x : Session α) (a : α) : Prop :=
  ∀ world, ∃ after, x.run.run world = (.ok a, after)

lemma returns_pure (a : α) : Returns (pure a) a :=
  fun world => ⟨world, rfl⟩

lemma Returns.bind {x : Session α} {f : α → Session β} {a : α} {b : β} (hx : x.Returns a)
    (hf : (f a).Returns b) : (x >>= f).Returns b := by
  intro world
  obtain ⟨middle, hmiddle⟩ := hx world
  obtain ⟨after, hafter⟩ := hf middle
  exact ⟨after, by rw [run_bind_of_ok hmiddle, hafter]⟩

lemma returns_record (event : Event) : Returns (Journal.record event) () :=
  fun world => ⟨world.deliver event.toRecord, rfl⟩

end Session

/-- A session that can fail does what a computation without effects does, in every world. -/
def Follows (x : ExceptT ε Session α) (y : ExceptT ε Id α) : Prop :=
  Session.Returns x.run (Id.run y.run)

namespace Follows

lemma of_pure (a : α) : Follows (pure a : ExceptT ε Session α) (pure a) :=
  Session.returns_pure _

lemma of_result (result : Except ε α) :
    Follows (ExceptT.mk (pure result)) (ExceptT.mk (pure result)) :=
  Session.returns_pure _

lemma of_lift {x : Session α} {a : α} (h : x.Returns a) :
    Follows (ExceptT.lift x : ExceptT ε Session α) (pure a) :=
  h.bind (Session.returns_pure _)

lemma of_record (event : Event) :
    Follows (Journal.record event : ExceptT ε Session Unit) (Journal.record event) :=
  of_lift (Session.returns_record event)

lemma bind {x : ExceptT ε Session α} {y : ExceptT ε Id α} {f : α → ExceptT ε Session β}
    {g : α → ExceptT ε Id β} (hx : Follows x y) (hf : ∀ a, Follows (f a) (g a)) :
    Follows (x >>= f) (y >>= g) := by
  rcases y with error | a
  · exact Session.Returns.bind hx (Session.returns_pure _)
  · exact Session.Returns.bind hx (hf a)

lemma bind_of_pure {x : ExceptT ε Session α} {f : α → ExceptT ε Session β} {a : α} {b : β}
    (hx : Follows x (pure a)) (hf : Follows (f a) (pure b)) : Follows (x >>= f) (pure b) :=
  Session.Returns.bind hx hf

lemma eq_pure {x : ExceptT ε Session α} {y : ExceptT ε Id α} {a : α} (h : Follows x y)
    (ha : Follows x (pure a)) : y = pure a := by
  obtain ⟨after, hafter⟩ := h default
  obtain ⟨after', hafter'⟩ := ha default
  rw [hafter] at hafter'
  exact Except.ok.inj (Prod.mk.inj hafter').1

end Follows

end Keyfile
