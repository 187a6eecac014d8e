import Keyfile.Configuration.Basic
import Keyfile.Proofs.Outcomes

/-!
# Loading without a journal

A computation that keeps no journal drops every event, so that carrying out a text is running a pass
over its statements and ending the pass, and loading keeps what the pass leaves.
-/

namespace Keyfile

variable {ε : Type} (external : Source Id) (text : Text)

lemma record_eq_pure (event : Event) :
    (Journal.record event : ExceptT ε Id Unit) = pure () := rfl

lemma records_eq_pure (event : Text → Event) (keys : List Text) :
    (forIn keys PUnit.unit fun key _ => do
      Journal.record (event key)
      return ForInStep.yield PUnit.unit : ExceptT ε Id PUnit) = pure PUnit.unit := by
  induction keys with
  | nil => rfl
  | cons key rest ih =>
    rw [List.forIn_cons, record_eq_pure, pure_bind, pure_bind]
    exact ih

/-- The end of a pass, as a computation. -/
def Pass.finished (pass : Pass) : ExceptT LoadError Id Pass :=
  ExceptT.mk (pure pass.finish)

theorem process_eq_run (macros : Table) (store : Store) :
    process external text macros store = do
      let pass ← Pass.run external (statements text) { macros, store }
      let finished ← pass.finished
      return (finished.store, finished.macros) := by
  have hclose : ∀ (keys : List Text) (event : Event) (pair : Store × Table),
      (do
        for key in keys do
          Journal.record (.valueOverridden key)
        Journal.record event
        return pair : ExceptT LoadError Id (Store × Table)) = pure pair := by
    intro keys event pair
    rw [records_eq_pure, pure_bind, record_eq_pure, pure_bind]
  simp only [process, hclose, Pass.finished]

theorem Configuration.load_eq_run (config : Configuration) :
    config.load external text = do
      let pass ← Pass.run external (statements text)
        { macros := config.macros, store := .ofItems config.store.items }
      let finished ← pass.finished
      return { store := .ofItems finished.store.items, macros := finished.macros } := by
  have hrecord : ∀ (event : Event) (loaded : Configuration),
      (Journal.record event >>= fun _ => pure loaded : ExceptT LoadError Id Configuration) =
        pure loaded := by
    intro event loaded
    rw [record_eq_pure, pure_bind]
  simp only [Configuration.load, hrecord, process_eq_run, bind_assoc, pure_bind]

end Keyfile
