import Keyfile.Proofs.LoggedFiles
import Keyfile.Proofs.Results
import Keyfile.Session.Files

/-!
# Places that logging keeps away from

Handlers write to files of their own. Where none of these is among some places, and no stream is
open on one of them, recording leaves what stands there and goes on keeping away.
-/

namespace Keyfile

namespace World

/-- Logging keeps away from places: no handler that takes the record of an event touches one of
them, and no stream is open on one. -/
structure Undisturbed (places : Path → Prop) (world : World) : Prop where
  handlers : ∀ event : Event, ∀ handler ∈ world.loggers.handlersFor event.toRecord,
    ∀ place, places place → ¬handler.target.Touches place
  streams : ∀ place, places place → world.streams.Avoids place

/-- The places look as in a tree, and logging keeps away from them. -/
structure Shows (places : Path → Prop) (tree : FileTree) (world : World) : Prop where
  undisturbed : world.Undisturbed places
  node : ∀ place, places place → world.files.get? place = tree.get? place

variable {places : Path → Prop} {tree : FileTree} {world : World}

lemma Undisturbed.shows (h : world.Undisturbed places) : world.Shows places world.files :=
  ⟨h, fun _ _ => rfl⟩

/-- Only the files, the streams and the loggers of a world count. -/
lemma Shows.congr {other : World} (h : world.Shows places tree) (hfiles : other.files = world.files)
    (hstreams : other.streams = world.streams) (hloggers : other.loggers = world.loggers) :
    other.Shows places tree := by
  refine ⟨⟨?_, ?_⟩, ?_⟩
  · rw [hloggers]
    exact h.undisturbed.handlers
  · rw [hstreams]
    exact h.undisturbed.streams
  · rw [hfiles]
    exact h.node

/-- A world that keeps no journal keeps away from everything. -/
lemma undisturbed_of_silent (hloggers : world.loggers = []) (hstreams : world.streams = {}) :
    world.Undisturbed places := by
  constructor
  · intro event handler hhandler
    have habove : Log.Loggers.above [] event.toRecord.channel = [] :=
      List.filterMap_eq_nil_iff.2 fun _ _ => rfl
    rw [hloggers, Log.Loggers.handlersFor, habove] at hhandler
    split at hhandler <;> cases hhandler
  · intro place _
    rw [hstreams]
    rintro number stream ⟨⟩

/-- Recording an event leaves the places as they look. -/
lemma Shows.deliver (h : world.Shows places tree) (event : Event) :
    (world.deliver event.toRecord).Shows places tree := by
  have hspares : ∀ place, places place →
      (Log.Output.deliver ⟨world.files, world.streams, world.console⟩ world.machine.time
        world.loggers event.toRecord).Spares place (tree.get? place) := by
    intro place hplace
    apply Log.Output.Spares.deliver ⟨h.node place hplace, h.undisturbed.streams place hplace⟩
    intro handler hhandler
    exact h.undisturbed.handlers event handler hhandler place hplace
  exact ⟨⟨h.undisturbed.handlers, fun place hplace => (hspares place hplace).streams⟩,
    fun place hplace => (hspares place hplace).node⟩

end World

/-- A session that ends well and leaves places as they look in any tree, while logging keeps away
from them. -/
def Session.Tells {α : Type} (places : Path → Prop) (x : Session α) : Prop :=
  ∀ (world : World) (tree : FileTree), world.Shows places tree →
    x.Ends world fun result after => (∃ a, result = .ok a) ∧ after.Shows places tree

namespace Session.Tells

variable {α β : Type} {places : Path → Prop}

lemma of_pure (a : α) : Tells places (pure a : Session α) :=
  fun _ _ h => ⟨⟨a, rfl⟩, h⟩

lemma of_record (event : Event) : Tells places (Journal.record event : Session Unit) :=
  fun _ _ h => ⟨⟨(), rfl⟩, h.deliver event⟩

lemma bind {x : Session α} {f : α → Session β} (hx : Tells places x)
    (hf : ∀ a, Tells places (f a)) : Tells places (x >>= f) := by
  intro world tree h
  apply (hx world tree h).bind
  · rintro a after ⟨-, hafter⟩
    exact hf a after tree hafter
  · rintro _ _ ⟨⟨_, ⟨⟩⟩, -⟩

lemma of_records {γ : Type} (event : γ → Event) (list : List γ) :
    Tells places (forIn list PUnit.unit fun a _ => do
      Journal.record (event a)
      return ForInStep.yield PUnit.unit : Session PUnit) := by
  induction list with
  | nil => exact of_pure _
  | cons a rest ih =>
    rw [List.forIn_cons, bind_assoc]
    exact (of_record (event a)).bind fun _ => ih

end Session.Tells

/-- A replacement tells of its backup when there was a file to keep. -/
lemma Replacement.tells_moved {places : Path → Prop} (replacement : Replacement) (there : Bool) :
    Session.Tells places (if (replacement.keepsBackup && there) = true then do
        for backup in replacement.path.withEnding? (replacement.backupEnding.getD []) do
          Journal.record (.movedToBackup (Session.pathText replacement.path)
            (Session.pathText backup.path))
      else pure () : Session Unit) := by
  split
  · cases replacement.path.withEnding? (replacement.backupEnding.getD []) with
    | none => exact .of_pure ()
    | some backup => exact (Session.Tells.of_record _).bind fun _ => .of_pure ()
  · exact .of_pure ()

end Keyfile
