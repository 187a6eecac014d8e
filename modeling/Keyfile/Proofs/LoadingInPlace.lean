import Keyfile.Configuration.Surroundings
import Keyfile.Proofs.Built

/-!
# Loading in place

A configuration that is changed in place stays the same object through all operations, also through
those that fail. A load works on copies of its store and its macros, one statement after the other,
and puts them in their place at its end. Whatever was done before and wherever a load stops, what is
kept is what the load that gives back a new configuration gives, and a load sees of the past no more
than the entries and the macros there are.
-/

namespace Keyfile

namespace Session

variable {α β : Type}

lemma ofLoad_bind (x : ExceptT LoadError Session α) (f : α → ExceptT LoadError Session β) :
    ofLoad (x >>= f) = ofLoad x >>= fun a => ofLoad (f a) := by
  rw [ofLoad, ofLoad, ExceptT.run_bind, bind_assoc, bind_assoc]
  apply bind_congr
  intro result
  cases result <;> rfl

lemma ofLoad_lift (x : Session α) : ofLoad (ExceptT.lift x) = x := by
  have hpure : ∀ a : α, ofExcept .load (.ok a) = (pure a : Session α) := fun _ => rfl
  simp [ofLoad, hpure]

lemma run_ofLoad (x : ExceptT LoadError Session α) (world : World) :
    (ofLoad x).run.run world =
      match x.run.run.run world with
      | (.ok result, after) => (result.mapError .load, after)
      | (.error failure, after) => (.error failure, after) := by
  rw [ofLoad, run_bind]
  rcases x.run.run.run world with ⟨failure | result, after⟩ <;> rfl

end Session

/-- Ends a pass over a text of so many lines and keeps the journal of it. -/
def Pass.close {m : Type → Type} [Monad m] [Journal m] (pass : Pass) (lines : Nat) :
    ExceptT LoadError m Pass := do
  let finished ← ExceptT.mk (pure pass.finish)
  for key in pass.store.overridden do
    Journal.record (.valueOverridden key)
  Journal.record (.textProcessed lines pass.store.admitted.length)
  return finished

/-- Carrying out a text is running a pass over it and ending the pass. -/
lemma process_eq_close {m : Type → Type} [Monad m] [LawfulMonad m] [Journal m] (external : Source m)
    (text : Text) (macros : Table) (store : Store) :
    process external text macros store = do
      let pass ← Pass.run external (statements text) { macros, store }
      let finished ← pass.close (Text.lines text).length
      return (finished.store, finished.macros) := by
  simp only [process, Pass.close, bind_assoc, pure_bind]

namespace Surrounded

/-- The state in which a load begins: copies of the macros and of the items, without any marks. -/
def opening (kept : Surrounded) : Pass :=
  { macros := kept.config.macros, store := .ofItems kept.config.store.items }

/-- The configuration with the store and the macros of a finished pass. -/
def closed (kept : Surrounded) (finished : Pass) : Surrounded :=
  { kept with
    config := { store := .ofItems finished.store.items, macros := finished.macros } }

/-- What a load with such an end is recorded as. -/
def loadedFrom (kept : Surrounded) (finished : Pass) : Event :=
  .configurationLoaded finished.store.size
    ((finished.store.size : Int) - kept.config.store.size)

lemma load_eq_close (kept : Surrounded) (text : Text) :
    kept.load text = do
      let pass ← Session.ofLoad (Pass.run kept.external (statements text) kept.opening)
      let finished ← Session.ofLoad (pass.close (Text.lines text).length)
      Journal.record (kept.loadedFrom finished)
      return kept.closed finished := by
  have hrecord : ∀ event : Event,
      Session.ofLoad (Journal.record event) = (Journal.record event : Session Unit) :=
    fun event => Session.ofLoad_lift (Journal.record event)
  simp only [Surrounded.load, Configuration.load, process_eq_close, Session.ofLoad_bind,
    hrecord, bind_assoc, pure_bind]
  rfl

lemma built_of_load {kept loaded : Surrounded} {text : Text} {world after : World}
    (hbuilt : kept.config.Built) (h : (kept.load text).run.run world = (.ok loaded, after)) :
    loaded.config.Built := by
  rw [Surrounded.load, Session.run_bind, Session.run_ofLoad] at h
  rcases hrun : (kept.config.load kept.external text).run.run.run world with
    ⟨failure | ⟨error | config⟩, middle⟩ <;> rw [hrun] at h
  · cases h
  · cases h
  · cases h
    exact hbuilt.load hrun

end Surrounded

/-- A configuration that is changed in place, with the copies that the last load worked on. They
are left as they were when the load ended, with their open blocks, their scope, their waiting values
and their marks. -/
structure Desk where
  kept : Surrounded
  copies : Pass := {}
  deriving Inhabited

/-- Work at a desk, in a world; what it did to the desk before a failure stays done. -/
abbrev Work := ExceptT Failure (StateT Desk (StateM World))

namespace Work

variable {α β : Type}

def ofSession (x : Session α) : Work α :=
  ExceptT.mk (StateT.lift x.run)

/-- How a piece of work ends, the desk it leaves and the world it leaves. -/
def exec (x : Work α) (desk : Desk) (world : World) : (Except Failure α × Desk) × World :=
  (x.run.run desk).run world

lemma exec_bind (x : Work α) (f : α → Work β) (desk : Desk) (world : World) :
    (x >>= f).exec desk world =
      match x.exec desk world with
      | ((.ok a, left), after) => (f a).exec left after
      | ((.error failure, left), after) => ((.error failure, left), after) := by
  have hbind : (x >>= f).exec desk world =
      ((ExceptT.bindCont f (x.exec desk world).1.1).run (x.exec desk world).1.2).run
        (x.exec desk world).2 := rfl
  rw [hbind]
  rcases x.exec desk world with ⟨⟨failure | a, left⟩, after⟩ <;> rfl

lemma exec_get_bind (f : Desk → Work β) (desk : Desk) (world : World) :
    (get >>= f).exec desk world = (f desk).exec desk world :=
  rfl

lemma exec_modify_bind (change : Desk → Desk) (x : PUnit → Work β) (desk : Desk) (world : World) :
    ((modify change : Work PUnit) >>= x).exec desk world = (x ⟨⟩).exec (change desk) world :=
  rfl

lemma exec_ofSession (x : Session α) (desk : Desk) (world : World) :
    (ofSession x).exec desk world = (((x.run.run world).1, desk), (x.run.run world).2) :=
  rfl

end Work

namespace Desk

/-- Carries out statements on the copies; those made before a failure stay changed. -/
def carryOut (external : Source Session) : List (Nat × Statement) → Work Unit
  | [] => pure ()
  | (line, statement) :: rest => do
    let copies := (← get).copies
    let next ← Work.ofSession (Session.ofLoad (copies.step external line statement))
    modify ({ · with copies := next })
    carryOut external rest

/-- Puts the copies as a load finished them in the place of the store and the macros. -/
def assign (kept : Surrounded) (finished : Pass) : Work Unit := do
  set { kept := kept.closed finished, copies := finished : Desk }
  Work.ofSession (Journal.record (kept.loadedFrom finished))

/-- Ends a load of a text: its blocks have to be closed and its waiting values get their places. -/
def close (kept : Surrounded) (text : Text) : Work Unit := do
  let copies := (← get).copies
  let finished ← Work.ofSession (Session.ofLoad (copies.close (Text.lines text).length))
  assign kept finished

/-- Loads a text in place: copies the store and the macros, carries out the text on the copies and
puts them in the place of what was there. -/
def load (text : Text) : Work Unit := do
  let kept := (← get).kept
  modify ({ · with copies := kept.opening })
  carryOut kept.external (statements text)
  close kept text

variable (desk : Desk) (world : World)

/-- The statements change the copies as the pass over them changes its state, and nothing else. -/
lemma exec_carryOut (external : Source Session) (numbered : List (Nat × Statement)) :
    ∃ left, (carryOut external numbered).exec desk world =
      match (Session.ofLoad (Pass.run external numbered desk.copies)).run.run world with
      | (.ok pass, after) => ((.ok (), { desk with copies := pass }), after)
      | (.error failure, after) => ((.error failure, { desk with copies := left }), after) := by
  induction numbered generalizing desk world with
  | nil => exact ⟨{}, rfl⟩
  | cons statement rest ih =>
    obtain ⟨line, statement⟩ := statement
    have hfirst : (carryOut external ((line, statement) :: rest)).exec desk world =
        (Work.ofSession (Session.ofLoad (desk.copies.step external line statement)) >>=
          fun next => (modify ({ · with copies := next }) : Work PUnit) >>= fun _ =>
            carryOut external rest).exec desk world := rfl
    rw [hfirst, Work.exec_bind, Work.exec_ofSession, Pass.run, Session.ofLoad_bind,
      Session.run_bind]
    rcases (Session.ofLoad (desk.copies.step external line statement)).run.run world with
      ⟨failure | next, after⟩
    · exact ⟨desk.copies, rfl⟩
    · exact ih { desk with copies := next } after

/-- A load in place ends as the load that gives back a configuration: it keeps that configuration,
or after a failure the one that was there. -/
theorem exec_load (text : Text) :
    ∃ left, (load text).exec desk world =
      match (desk.kept.load text).run.run world with
      | (.ok loaded, after) => ((.ok (), ⟨loaded, left⟩), after)
      | (.error failure, after) => ((.error failure, ⟨desk.kept, left⟩), after) := by
  obtain ⟨left, hrun⟩ := exec_carryOut { desk with copies := desk.kept.opening } world
    desk.kept.external (statements text)
  rw [load, Work.exec_get_bind, Work.exec_modify_bind, Work.exec_bind, hrun,
    Surrounded.load_eq_close, Session.run_bind]
  rcases (Session.ofLoad (Pass.run desk.kept.external (statements text)
    desk.kept.opening)).run.run world with ⟨failure | pass, middle⟩
  · exact ⟨left, rfl⟩
  dsimp only
  rw [close, Work.exec_get_bind, Work.exec_bind, Work.exec_ofSession, Session.run_bind]
  rcases (Session.ofLoad (pass.close (Text.lines text).length)).run.run middle with
    ⟨failure | finished, after⟩
  · exact ⟨pass, rfl⟩
  · exact ⟨finished, rfl⟩

end Desk

/-- A change of a configuration through any of its views; adding a value is setting it. -/
inductive Edit
  | load (text : Text)
  | loadFile (file : Text) (encoding : Encoding)
  | set (scope : Option Text) (key : Text) (value : Value)
  | remove (scope : Option Text) (key : Text)
  | define (name text : Text)
  | undefine (name : Text)

namespace Edit

def carryOut : Edit → Work Unit
  | load text => Desk.load text
  | loadFile file encoding => do
    let path ← Work.ofSession (Session.resolve file)
    Desk.load (← Work.ofSession (Session.readText path encoding))
    Work.ofSession (Journal.record (.fileLoaded (Session.pathText path)))
  | set scope key value => modify fun desk => { desk with kept := desk.kept.store scope key value }
  | remove scope key => modify fun desk => { desk with kept := desk.kept.store scope key .absent }
  | define name text => do
    modify fun desk => { desk with kept.config := desk.kept.config.define name text }
    Work.ofSession (Journal.record (.macroDefined name))
  | undefine name => do
    let known := (← get).kept.config.macros.contains name
    modify fun desk => { desk with kept.config := desk.kept.config.undefine name }
    if known then Work.ofSession (Journal.record (.macroRemoved name))

/-- A change fails and keeps the configuration that was there, or it succeeds and keeps one that
can be built. -/
lemma exec_carryOut (edit : Edit) (desk : Desk) (world : World) :
    (∃ failure, (edit.carryOut.exec desk world).1.1 = .error failure ∧
        (edit.carryOut.exec desk world).1.2.kept = desk.kept) ∨
      (edit.carryOut.exec desk world).1.1 = .ok () ∧
        (desk.kept.config.Built → (edit.carryOut.exec desk world).1.2.kept.config.Built) := by
  cases edit with
  | load text =>
    obtain ⟨left, hload⟩ := desk.exec_load world text
    rw [carryOut, hload]
    rcases hrun : (desk.kept.load text).run.run world with ⟨failure | loaded, after⟩
    · exact .inl ⟨failure, rfl, rfl⟩
    · exact .inr ⟨rfl, fun hbuilt => Surrounded.built_of_load hbuilt hrun⟩
  | loadFile file encoding =>
    rw [carryOut, Work.exec_bind, Work.exec_ofSession]
    rcases (Session.resolve file).run.run world with ⟨failure | path, found⟩
    · exact .inl ⟨failure, rfl, rfl⟩
    dsimp only
    rw [Work.exec_bind, Work.exec_ofSession]
    rcases (Session.readText path encoding).run.run found with ⟨failure | text, read⟩
    · exact .inl ⟨failure, rfl, rfl⟩
    obtain ⟨left, hload⟩ := desk.exec_load read text
    dsimp only
    rw [Work.exec_bind, hload]
    rcases hrun : (desk.kept.load text).run.run read with ⟨failure | loaded, after⟩
    · exact .inl ⟨failure, rfl, rfl⟩
    · exact .inr ⟨rfl, fun hbuilt => Surrounded.built_of_load hbuilt hrun⟩
  | set scope key value =>
    refine .inr ⟨rfl, fun hbuilt => ?_⟩
    cases value
    case absent => exact hbuilt.remove scope key
    all_goals exact hbuilt.set scope key _
  | remove scope key => exact .inr ⟨rfl, fun hbuilt => hbuilt.remove scope key⟩
  | define name text => exact .inr ⟨rfl, fun hbuilt => hbuilt.define name text⟩
  | undefine name =>
    have hrun : ((undefine name).carryOut.exec desk world).1 =
        (.ok (), { desk with kept.config := desk.kept.config.undefine name }) := by
      rw [carryOut, Work.exec_get_bind, Work.exec_modify_bind]
      split <;> rfl
    rw [hrun]
    exact .inr ⟨rfl, fun hbuilt => hbuilt.undefine name⟩

end Edit

namespace Desk

/-- The desk after changes, each made in a world of its own; those that fail leave the desk as they
left it. -/
def after (desk : Desk) (history : List (Edit × World)) : Desk :=
  history.foldl (fun desk step => (step.1.carryOut.exec desk step.2).1.2) desk

end Desk

namespace Surrounded

/-- The entries and the macros that the view of the whole shows. -/
def shown (surrounded : Surrounded) : List (Text × Text) × List (Text × Text) :=
  (surrounded.config.entries none, surrounded.config.macros.entries)

/-- A pass of its own over a text, on a fresh store and a fresh table that hold what is given. -/
def processAnew (surrounded : Surrounded) (text : Text)
    (given : List (Text × Text) × List (Text × Text)) :
    Session (List (Text × Text) × List (Text × Text)) := do
  let (store, macros) ← Session.ofLoad (process surrounded.external text (.ofPairs given.2)
    (.ofItems (.ofPairs given.1)))
  return (store.items.entries, macros.entries)

/-- A fresh store and a fresh table are the ones of the configuration but for marks, which a load
does not copy. -/
lemma processAnew_shown {surrounded : Surrounded} (hbuilt : surrounded.config.Built) (text : Text) :
    surrounded.processAnew text surrounded.shown = do
      let (store, macros) ← Session.ofLoad (process surrounded.external text
        surrounded.config.macros (.ofItems surrounded.config.store.items))
      return (store.items.entries, macros.entries) := by
  have hitems : Table.ofPairs (surrounded.config.entries none) = surrounded.config.store.items :=
    Table.ofPairs_entries hbuilt.distincts.items
  have hmacros : Table.ofPairs surrounded.config.macros.entries = surrounded.config.macros :=
    Table.ofPairs_entries hbuilt.distincts.macros
  rw [processAnew, shown, hitems, hmacros]

/-- A load shows in the end what a pass of its own comes to on what is shown before. -/
lemma result_load_shown {surrounded : Surrounded} (hbuilt : surrounded.config.Built) (text : Text)
    (world : World) :
    ((surrounded.load text).run.run world).1.map shown =
      ((surrounded.processAnew text surrounded.shown).run.run world).1 := by
  have hload : surrounded.config.load surrounded.external text = do
      let loaded ← process surrounded.external text surrounded.config.macros
        (.ofItems surrounded.config.store.items)
      Journal.record (.configurationLoaded loaded.1.size
        ((loaded.1.size : Int) - surrounded.config.store.size))
      return { store := .ofItems loaded.1.items, macros := loaded.2 } := rfl
  rw [processAnew_shown hbuilt, Surrounded.load, hload, Session.ofLoad_bind, bind_assoc,
    Session.run_bind, Session.run_bind]
  rcases (Session.ofLoad (process surrounded.external text surrounded.config.macros
    (.ofItems surrounded.config.store.items))).run.run world with ⟨failure | loaded, after⟩ <;> rfl

end Surrounded

namespace Desk

variable {desk : Desk}

/-- Whatever is changed, and whatever fails, the configuration is one that can be built. -/
lemma built_after (hbuilt : desk.kept.config.Built) (history : List (Edit × World)) :
    (desk.after history).kept.config.Built := by
  induction history generalizing desk with
  | nil => exact hbuilt
  | cons step rest ih =>
    apply ih
    rcases step.1.exec_carryOut desk step.2 with ⟨failure, -, hkept⟩ | ⟨-, hnext⟩
    · rw [hkept]
      exact hbuilt
    · exact hnext hbuilt

/-- After any history a load in place gives the result, the entries and the macros that a pass of its
own gives on a fresh store and a fresh table with the entries and the macros that are shown. And
whenever a load fails, the configuration is the one that was there. -/
theorem load_after_edits (hbuilt : desk.kept.config.Built) (history : List (Edit × World))
    (text : Text) (world : World) :
    ((load text).exec (desk.after history) world).1.1.map
        (fun _ => ((load text).exec (desk.after history) world).1.2.kept.shown) =
      (((desk.after history).kept.processAnew text (desk.after history).kept.shown).run.run
        world).1 ∧
    ∀ (edit : Edit) (failure : Failure),
      (edit.carryOut.exec (desk.after history) world).1.1 = .error failure →
      (edit.carryOut.exec (desk.after history) world).1.2.kept = (desk.after history).kept := by
  constructor
  · rw [← Surrounded.result_load_shown (built_after hbuilt history)]
    obtain ⟨left, hload⟩ := (desk.after history).exec_load world text
    rw [hload]
    rcases ((desk.after history).kept.load text).run.run world with ⟨failure | loaded, after⟩ <;> rfl
  · intro edit failure hfailure
    rcases edit.exec_carryOut (desk.after history) world with ⟨-, -, hkept⟩ | ⟨hok, -⟩
    · exact hkept
    · rw [hok] at hfailure
      cases hfailure

/-- A position is written explicitly, and a load stops with a section and a conditional open and a
value waiting for that position. -/
def stoppedHistory : List (Edit × World) :=
  [(.set none "list[0]".toList (.text "old".toList), default),
    (.load "#section s\nlist[-] = lost\n#if true".toList, default)]

def emptyDesk : Desk where
  kept := { usesEnvironment := false }

def stoppedDesk : Desk :=
  emptyDesk.after stoppedHistory

/-- Neither the marks in what is kept nor what the stopped load left in the copies are in the way of
the next load. -/
theorem load_stoppedDesk :
    stoppedDesk.kept.config.store.explicit = ["list[0]".toList] ∧
      stoppedDesk.copies.blocks.length = 2 ∧
      stoppedDesk.copies.store.queues = [⟨"s.list".toList, ["lost".toList]⟩] ∧
      ((load "list[-] = new".toList).exec stoppedDesk default).1.1.map
          (fun _ => ((load "list[-] = new".toList).exec stoppedDesk default).1.2.kept.shown) =
        .ok ([("list[0]".toList, "new".toList)], []) := by
  have hbuilt : emptyDesk.kept.config.Built := .empty
  obtain ⟨hload, -⟩ := load_after_edits hbuilt stoppedHistory "list[-] = new".toList default
  refine ⟨by decide +kernel, by decide +kernel, by decide +kernel, ?_⟩
  rw [stoppedDesk, hload]
  decide +kernel

end Desk

end Keyfile
