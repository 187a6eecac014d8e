import Keyfile.Proofs.Concatenation
import Keyfile.Proofs.EntryOrder
import Keyfile.Proofs.LikeRuns
import Keyfile.Proofs.ReferenceSpans
import Keyfile.Proofs.Steps

/-!
# Loading in layers

A pass that ends well has closed its sections, so the next text begins outside of all of them, as it
does in a load of its own. Where no entry asks for the next free position of an array nothing waits
either, and all that a later pass over the same store can tell is which keys count as written, which
only waiting values look at. So loading one text after the other is loading both as one text.
-/

namespace Keyfile

namespace Key

/-- No part of the scope asks for the next free position of an array. -/
def Unindexed (scope : Option Text) : Prop :=
  ∀ name ∈ scope, ¬autoIndex <:+: name

lemma infix_append_period {a b : Text} (h : autoIndex <:+: a ++ '.' :: b) :
    autoIndex <:+: a ∨ autoIndex <:+: b := by
  have hperiod : '.' ∉ autoIndex := by decide
  rcases List.infix_append_iff.1 h with ha | hb | ⟨before, after, heq, hbefore, hafter⟩
  · exact .inl ha
  · rcases List.infix_cons_iff.1 hb with hprefix | hb
    · exact absurd (List.cons_prefix_cons.1 hprefix).1 (by decide)
    · exact .inr hb
  · cases after with
    | nil => exact .inl (heq ▸ (List.append_nil before).symm ▸ hbefore.isInfix)
    | cons c after =>
      obtain rfl := (List.cons_prefix_cons.1 hafter).1
      exact absurd (heq ▸ by simp) hperiod

lemma isPrefix_withoutFinalPeriod (key : Text) : withoutFinalPeriod key <+: key := by
  unfold withoutFinalPeriod
  split
  · exact List.dropLast_prefix key
  · exact List.prefix_rfl

lemma withoutInitialPeriod_suffix (key : Text) : withoutInitialPeriod key <:+ key := by
  unfold withoutInitialPeriod
  split
  · exact List.suffix_cons _ _
  · exact List.suffix_rfl

/-- What a key joins to below a scope: itself, the scope, or both with a period between them. -/
lemma join_cases (scope : Option Text) (key : Text) :
    join scope (some key) = some (withoutInitialPeriod key) ∨
      ∃ name ∈ scope, join scope (some key) = some (withoutFinalPeriod name) ∨
        join scope (some key) =
          some (withoutFinalPeriod name ++ '.' :: withoutInitialPeriod key) := by
  unfold join
  cases scope with
  | none => exact .inl rfl
  | some name =>
    simp only [Option.map_some]
    split
    · exact .inl rfl
    · refine .inr ⟨name, rfl, ?_⟩
      split
      · exact .inl rfl
      · exact .inr rfl

lemma unindexed_join {scope : Option Text} (hscope : Unindexed scope) {name : Text}
    (hname : ¬autoIndex <:+: name) : Unindexed (join scope (some name)) := by
  have htail : ¬autoIndex <:+: withoutInitialPeriod name :=
    fun h => hname (h.trans (withoutInitialPeriod_suffix name).isInfix)
  have hhead : ∀ outer ∈ scope, ¬autoIndex <:+: withoutFinalPeriod outer :=
    fun outer houter h => hscope outer houter (h.trans (isPrefix_withoutFinalPeriod outer).isInfix)
  rcases join_cases scope name with heq | ⟨outer, houter, heq | heq⟩ <;> rw [heq] <;>
    rintro _ ⟨⟩
  · exact htail
  · exact hhead outer houter
  · exact fun h => (infix_append_period h).elim (hhead outer houter) htail

/-- A full key asks for a free position only when the key does. -/
lemma asksPosition_of_qualify {scope : Option Text} (hscope : Unindexed scope) {key : Text}
    (h : asksPosition (qualify scope key) = true) : asksPosition key = true := by
  have hsuffix : ∀ {full : Text}, asksPosition full = true ↔ autoIndex <:+ full :=
    List.isSuffixOf_iff_suffix
  rw [hsuffix] at h ⊢
  have hfull : autoIndex <:+ key ∨ ∃ full ∈ join scope (some key), autoIndex <:+ full := by
    unfold qualify at h
    split at h
    · exact .inl h
    · rename_i full _ hjoin
      exact .inr ⟨full, hjoin, h⟩
    · exact .inl h
  rcases hfull with hkey | ⟨full, hjoin, hfull⟩
  · exact hkey
  rcases join_cases scope key with heq | ⟨outer, houter, heq | heq⟩ <;> rw [heq] at hjoin <;>
    obtain rfl := Option.some.inj hjoin
  · exact hfull.trans (withoutInitialPeriod_suffix key)
  · exact absurd (hfull.isInfix.trans (isPrefix_withoutFinalPeriod outer).isInfix)
      (hscope outer houter)
  · have htail : '.' :: withoutInitialPeriod key <:+
        withoutFinalPeriod outer ++ '.' :: withoutInitialPeriod key := List.suffix_append _ _
    rcases List.suffix_or_suffix_of_suffix hfull htail with hshort | hlong
    · rcases List.suffix_cons_iff.1 hshort with heq | hshort
      · exact absurd heq (by simp [autoIndex])
      · exact hshort.trans (withoutInitialPeriod_suffix key)
    · exact absurd (hlong.subset List.mem_cons_self) (by decide)

end Key

/-- Whether an entry is written under a key that asks for the next free position of an array. -/
def Statement.asksPosition : Statement → Bool
  | .entry key _ => Key.asksPosition key
  | .directive _ _ | .unknown _ => false

/-- No entry of the text asks for the next free position of an array. -/
def NothingWaits (text : Text) : Prop :=
  ∀ line ∈ statements text, line.2.asksPosition = false

instance (text : Text) : Decidable (NothingWaits text) :=
  inferInstanceAs (Decidable (∀ line ∈ statements text, _))

namespace Pass

/-- The open sections lead back from the scope to the outermost one, which has no name. -/
inductive Unwinds : List Block → Option Text → Prop
  | nil : Unwinds [] none
  | ifBlock (block : IfBlock) {rest : List Block} {scope : Option Text} (h : Unwinds rest scope) :
      Unwinds (.ifBlock block :: rest) scope
  | switchBlock (block : SwitchBlock) {rest : List Block} {scope : Option Text}
      (h : Unwinds rest scope) : Unwinds (.switchBlock block :: rest) scope
  | sectionBlock (block : SectionBlock) {rest : List Block} {scope : Option Text}
      (hscope : Key.Unindexed scope) (h : Unwinds rest block.outerScope) :
      Unwinds (.sectionBlock block :: rest) scope

lemma Unwinds.unindexed {blocks : List Block} {scope : Option Text} (h : Unwinds blocks scope) :
    Key.Unindexed scope := by
  induction h with
  | nil => rintro _ ⟨⟩
  | ifBlock _ _ ih => exact ih
  | switchBlock _ _ ih => exact ih
  | sectionBlock _ hscope _ _ => exact hscope

/-- A pass in which nothing waits and every section can be left. -/
structure Settled (pass : Pass) : Prop where
  unwinds : Unwinds pass.blocks pass.scope
  queues : pass.store.queues = []

namespace Settled

variable {pass next : Pass} {line : Nat} {argument : Text} {external : Source Id}

lemma enter (h : pass.Settled) {key : Text} (hkey : Key.asksPosition key = false) (value : Text) :
    (pass.enter key value).Settled := by
  have hfull : Key.asksPosition (Key.qualify pass.scope key) = false := by
    by_contra hasks
    have hasks := Key.asksPosition_of_qualify h.unwinds.unindexed (by simpa using hasks)
    simp [hkey] at hasks
  rw [enter_eq, Store.operationOf_of_placed hfull]
  exact ⟨h.unwinds, h.queues⟩

lemma beginElse (h : pass.Settled) (hrule : pass.beginElse = .ok next) : next.Settled := by
  obtain ⟨blocks, scope, macros, store⟩ := pass
  obtain ⟨hunwinds, hqueues⟩ := h
  cases hunwinds with
  | nil | switchBlock | sectionBlock => cases hrule
  | ifBlock block h =>
    obtain ⟨outerEnabled, condition, begun, inElse⟩ := block
    cases inElse with
    | true => cases hrule
    | false =>
      cases hrule
      exact ⟨.ifBlock _ h, hqueues⟩

lemma endIf (h : pass.Settled) (hrule : pass.endIf = .ok next) : next.Settled := by
  obtain ⟨blocks, scope, macros, store⟩ := pass
  obtain ⟨hunwinds, hqueues⟩ := h
  cases hunwinds with
  | nil | switchBlock | sectionBlock => cases hrule
  | ifBlock block h =>
    cases hrule
    exact ⟨h, hqueues⟩

lemma beginCase (h : pass.Settled) (hrule : pass.beginCase argument = .ok next) : next.Settled := by
  obtain ⟨blocks, scope, macros, store⟩ := pass
  obtain ⟨hunwinds, hqueues⟩ := h
  cases hunwinds with
  | nil | ifBlock | sectionBlock => cases hrule
  | switchBlock block h =>
    obtain ⟨outerEnabled, value, begun, matched, enabled, hasDefault⟩ := block
    cases hasDefault with
    | true => cases hrule
    | false =>
      cases hrule
      exact ⟨.switchBlock _ h, hqueues⟩

lemma beginDefault (h : pass.Settled) (hrule : pass.beginDefault = .ok next) : next.Settled := by
  obtain ⟨blocks, scope, macros, store⟩ := pass
  obtain ⟨hunwinds, hqueues⟩ := h
  cases hunwinds with
  | nil | ifBlock | sectionBlock => cases hrule
  | switchBlock block h =>
    obtain ⟨outerEnabled, value, begun, matched, enabled, hasDefault⟩ := block
    cases hasDefault with
    | true => cases hrule
    | false =>
      cases hrule
      exact ⟨.switchBlock _ h, hqueues⟩

lemma endSwitch (h : pass.Settled) (hrule : pass.endSwitch = .ok next) : next.Settled := by
  obtain ⟨blocks, scope, macros, store⟩ := pass
  obtain ⟨hunwinds, hqueues⟩ := h
  cases hunwinds with
  | nil | ifBlock | sectionBlock => cases hrule
  | switchBlock block h =>
    cases hrule
    exact ⟨h, hqueues⟩

lemma beginSection (h : pass.Settled) (hrule : pass.beginSection line argument = .ok next) :
    next.Settled := by
  unfold Pass.beginSection at hrule
  split at hrule
  · cases hrule
  · split at hrule
    · cases hrule
    · rename_i hindexed
      rw [Text.includes_iff] at hindexed
      cases hrule
      exact ⟨.sectionBlock _ (Key.unindexed_join h.unwinds.unindexed hindexed) h.unwinds, h.queues⟩

lemma endSection (h : pass.Settled) (hrule : pass.endSection = .ok next) : next.Settled := by
  obtain ⟨blocks, scope, macros, store⟩ := pass
  obtain ⟨hunwinds, hqueues⟩ := h
  cases hunwinds with
  | nil | ifBlock | switchBlock => cases hrule
  | sectionBlock block hscope h =>
    cases hrule
    exact ⟨h, hqueues⟩

lemma rule (h : pass.Settled) {word : Directive}
    (hrule : pass.rule? line argument word = some (.ok next)) : next.Settled := by
  cases word with
  | define | set | undefine | ifBegin | switchBegin => cases hrule
  | ifElse => exact h.beginElse (Option.some.inj hrule)
  | ifEnd => exact h.endIf (Option.some.inj hrule)
  | switchCase => exact h.beginCase (Option.some.inj hrule)
  | switchDefault => exact h.beginDefault (Option.some.inj hrule)
  | switchEnd => exact h.endSwitch (Option.some.inj hrule)
  | sectionBegin => exact h.beginSection (Option.some.inj hrule)
  | sectionEnd => exact h.endSection (Option.some.inj hrule)

/-- Only an entry could wait, and only a section changes the scope. -/
lemma comes (h : pass.Settled) {statement : Statement} (hstatement : statement.asksPosition = false)
    (hcomes : Comes line pass statement (.ok next)) : next.Settled := by
  generalize houtcome : Except.ok next = outcome at hcomes
  cases hcomes with
  | entry key value =>
    cases houtcome
    split
    · exact h
    · exact h.enter hstatement value
  | @rule word argument result hrule =>
    cases result with
    | error cause => cases houtcome
    | ok after =>
      cases houtcome
      exact h.rule hrule
  | unknown | refused | conditionMissing | expressionMissing | unexpanded => cases houtcome
  | passedOver =>
    cases houtcome
    exact h
  | defined | undefined =>
    cases houtcome
    exact ⟨h.unwinds, h.queues⟩
  | conditional =>
    cases houtcome
    exact ⟨.ifBlock _ h.unwinds, h.queues⟩
  | choice =>
    cases houtcome
    exact ⟨.switchBlock _ h.unwinds, h.queues⟩

theorem run (h : pass.Settled) {numbered : List (Nat × Statement)}
    (hnumbered : ∀ line ∈ numbered, line.2.asksPosition = false)
    (heq : Pass.run external numbered pass = pure next) : next.Settled := by
  induction numbered generalizing pass with
  | nil => rwa [← pure_inj heq]
  | cons first rest ih =>
    obtain ⟨hfirst, hrest⟩ := List.forall_mem_cons.1 hnumbered
    obtain ⟨middle, hstep, heq⟩ := bind_eq_pure_iff.1 heq
    have hcomes := (always_step pass first.1 external first.2).of_run_id
    have hstep : pass.step external first.1 first.2 = pure middle := hstep
    rw [hstep] at hcomes
    exact ih (h.comes hfirst hcomes) hrest heq

end Settled

lemma settled_start (config : Configuration) :
    Settled { macros := config.macros, store := .ofItems config.store.items } :=
  ⟨.nil, rfl⟩

lemma merge_of_queues {store : Store} (h : store.queues = []) :
    store.merge = .ofItems store.items := by
  simp [Store.merge, Store.admitted, Store.queued, h]

end Pass

/-- What tells a load after another one from the second half of a single load: where the lines
stand, and which keys count as written. -/
def layering (lines : Nat) : Likeness where
  letter := Eq
  refl _ := rfl
  recases _ _ h := h ▸ rfl
  shift := lines
  marks _ _ := True
  marks_cons _ _ := trivial

section Layering

variable {lines : Nat}

lemma eq_of_layering {name name' : Text} (h : (layering lines).Name name name') : name = name' :=
  List.forall₂_eq_eq_eq ▸ h

lemma table_eq_of_layering {table table' : Table} (h : (layering lines).Tables table table') :
    table = table' := by
  have hentries : List.Forall₂ Eq table.entries table'.entries :=
    h.imp fun entry entry' hentry => Prod.ext (eq_of_layering hentry.1) hentry.2
  obtain ⟨entries⟩ := table
  obtain ⟨entries'⟩ := table'
  exact congrArg Table.mk (List.forall₂_eq_eq_eq ▸ hentries)

/-- A text that stands further down says the same there. -/
lemma numbered_below (numbered : List (Nat × Statement)) :
    List.Forall₂ (layering lines).Numbered numbered (numbered.map (Statement.below lines)) := by
  apply List.forall₂_map_right_iff.2
  apply List.forall₂_same.2
  intro statement _
  exact ⟨rfl, .refl statement.2⟩

/-- Passes that end in alike states leave the same configuration, or the same block open. -/
lemma paired_finished {pass pass' : Pass} (h : (layering lines).Passes pass pass')
    (hsettled : pass.Settled) :
    Paired Eq (layering lines).Errors
      (pass.finished >>= fun finished =>
        pure ({ store := .ofItems finished.store.items, macros := finished.macros } : Configuration))
      (pass'.finished >>= fun finished =>
        pure { store := .ofItems finished.store.items, macros := finished.macros }) := by
  obtain ⟨blocks, scope, macros, store⟩ := pass
  obtain ⟨blocks', scope', macros', store'⟩ := pass'
  obtain ⟨hblocks, -, hmacros, hstore⟩ := h
  cases hblocks with
  | nil =>
    -- nothing waits, so the merge leaves the items, which do not show the marks of written keys
    have hqueues : store.queues = [] := hsettled.queues
    have hqueues' : store'.queues = [] := by
      have hwaiting := hstore.queues
      rw [hqueues] at hwaiting
      exact List.forall₂_nil_left_iff.1 hwaiting
    have hitems : store.merge.items = store'.merge.items := by
      rw [Pass.merge_of_queues hqueues, Pass.merge_of_queues hqueues']
      exact table_eq_of_layering hstore.items
    have hmacros : macros = macros' := table_eq_of_layering hmacros
    apply Paired.pure
    dsimp only
    rw [hitems, hmacros]
  | cons hblock _ => cases hblock <;> exact .throw (.format (.refl _) _)

end Layering

lemma Pass.of_finished {pass next : Pass} (h : pass.finished = pure next) :
    pass.blocks = [] ∧ next = { pass with store := pass.store.merge } := by
  obtain ⟨blocks, scope, macros, store⟩ := pass
  cases blocks with
  | nil => exact ⟨rfl, (pure_inj h).symm⟩
  | cons block rest => cases h

/-- What one text leaves to the next: a pass outside of all blocks, as at the beginning of a load of
its own. -/
lemma Configuration.exists_passes_of_load {config loaded : Configuration} {external : Source Id}
    {first : Text} (hfirst : NothingWaits first)
    (hloaded : config.load external first = pure loaded) (lines : Nat) :
    ∃ ended, Pass.run external (statements first)
        { macros := config.macros, store := .ofItems config.store.items } = pure ended ∧
      (layering lines).Passes { macros := loaded.macros, store := .ofItems loaded.store.items }
        ended := by
  rw [load_eq_run] at hloaded
  obtain ⟨ended, hrun, hloaded⟩ := bind_eq_pure_iff.1 hloaded
  obtain ⟨finished, hfinished, hloaded⟩ := bind_eq_pure_iff.1 hloaded
  have hsettled : ended.Settled := (Pass.settled_start config).run hfirst hrun
  obtain ⟨hblocks, rfl⟩ := Pass.of_finished hfinished
  refine ⟨ended, hrun, ?_⟩
  rw [← pure_inj hloaded]
  obtain ⟨blocks, scope, macros, store⟩ := ended
  obtain rfl : blocks = [] := hblocks
  obtain ⟨hunwinds, hqueues⟩ := hsettled
  have hqueues : store.queues = [] := hqueues
  cases hunwinds
  refine ⟨.nil, .none, .refl macros, ⟨?_, ?_, trivial⟩⟩
  · rw [Pass.merge_of_queues hqueues]
    exact .refl store.items
  · rw [hqueues]
    exact .nil

/-- A load after another one ends like the load of both texts as one, up to the lines that its
errors name. -/
theorem Configuration.paired_load_append {config loaded : Configuration} {external : Source Id}
    {first second : Text} (hclosed : ValuesClosed first) (hfirst : NothingWaits first)
    (hsecond : NothingWaits second) (hloaded : config.load external first = pure loaded) :
    Paired Eq (layering (lineCount first)).Errors (loaded.load external second)
      (config.load external (first ++ Text.crlf ++ second)) := by
  obtain ⟨ended, hrun, hpasses⟩ := exists_passes_of_load hfirst hloaded (lineCount first)
  have hasks : ∀ name name', (layering (lineCount first)).Name name name' →
      external.ask name = external.ask name' :=
    fun name name' hname => congrArg external.ask (eq_of_layering hname)
  have hpaired := Likeness.paired_run hasks (numbered_below (statements second)) hpasses
  rw [load_eq_run, load_eq_run, statements_append hclosed, Pass.run_append, hrun, pure_bind]
  generalize hnext : Pass.run external (statements second)
    { macros := loaded.macros, store := .ofItems loaded.store.items } = next at hpaired ⊢
  generalize Pass.run external ((statements second).map (Statement.below (lineCount first))) ended =
    next' at hpaired ⊢
  cases hpaired with
  | throw herror => exact .throw herror
  | pure hends => exact paired_finished hends ((Pass.settled_start loaded).run hsecond hnext)

/-- Loading one text after the other is loading both as one. -/
theorem Configuration.load_append {config loaded : Configuration} {external : Source Id}
    {first second : Text} (hclosed : ValuesClosed first) (hfirst : NothingWaits first)
    (hsecond : NothingWaits second) (hloaded : config.load external first = pure loaded)
    (result : Configuration) :
    loaded.load external second = pure result ↔
      config.load external (first ++ Text.crlf ++ second) = pure result := by
  have hpaired := paired_load_append hclosed hfirst hsecond hloaded
  generalize loaded.load external second = layered at hpaired ⊢
  generalize config.load external (first ++ Text.crlf ++ second) = whole at hpaired ⊢
  cases hpaired with
  | pure heq => rw [heq]
  | throw _ => exact iff_of_false throw_ne_pure throw_ne_pure

/-- A section, a value of several lines and a macro, for the layer above to build on. -/
def lowerLayer : Text :=
  "#define mode fast\r\n#section server\r\nport = 80\r\n#endsection\r\nmotd = \x7b\x7b\r\nhi\r\n\x7d\x7d\r\n".toList

def upperLayer : Text :=
  "#if mode\r\nServer.Port = 81\r\n#endif\r\n#set copy %mode%\r\n#switch motd\r\n#case HI\r\ngreeted = 1\r\n#endswitch".toList

def lowerConfiguration : Configuration where
  store := .ofItems ⟨[("server.port".toList, "80".toList), ("motd".toList, "hi".toList)]⟩
  macros := ⟨[("mode".toList, "fast".toList)]⟩

def upperConfiguration : Configuration where
  store := .ofItems ⟨[("Server.Port".toList, "81".toList), ("motd".toList, "hi".toList),
    ("greeted".toList, ['1'])]⟩
  macros := ⟨[("mode".toList, "fast".toList), ("copy".toList, "fast".toList)]⟩

theorem load_append_server :
    Configuration.load {} .silent lowerLayer =
        (pure lowerConfiguration : ExceptT LoadError Id Configuration) ∧
      lowerConfiguration.load .silent upperLayer =
        (pure upperConfiguration : ExceptT LoadError Id Configuration) ∧
      Configuration.load {} .silent (lowerLayer ++ Text.crlf ++ upperLayer) =
        (pure upperConfiguration : ExceptT LoadError Id Configuration) := by
  have hclosed : ValuesClosed lowerLayer := by decide +kernel
  have hfirst : NothingWaits lowerLayer := by decide +kernel
  have hsecond : NothingWaits upperLayer := by decide +kernel
  have hlower : Configuration.load {} .silent lowerLayer =
      (pure lowerConfiguration : ExceptT LoadError Id Configuration) := by decide +kernel
  have hupper : lowerConfiguration.load .silent upperLayer =
      (pure upperConfiguration : ExceptT LoadError Id Configuration) := by decide +kernel
  exact ⟨hlower, hupper,
    (Configuration.load_append hclosed hfirst hsecond hlower upperConfiguration).1 hupper⟩

end Keyfile
