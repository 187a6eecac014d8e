import Keyfile.Proofs.LogSetup

/-!
# Exit codes

A command is refused when loading its file or expanding what it asks for ends in an error of the
configuration, or when one of its tags is malformed. Whatever else it fails with is no refusal. When
it does not fail, it ends with the code one exactly when the key or the definition that it asks for
is not there.
-/

namespace Keyfile

namespace Session

variable {α β : Type} {p q : Failure → Prop}

/-- Whatever a session fails with, in any world, has a property. -/
def FailsWith (p : Failure → Prop) (x : Session α) : Prop :=
  ∀ world failure, (x.run.run world).1 = .error failure → p failure

/-- A session that no configuration is refused in. -/
abbrev Plain (x : Session α) : Prop :=
  FailsWith (fun failure => failure.isRefusal = false) x

/-- A session in which a configuration is refused for errors of loading only. -/
abbrev LoadErrorsOnly (x : Session α) : Prop :=
  FailsWith (fun failure => failure.isRefusal → ∃ error, failure = .load error) x

namespace FailsWith

lemma mono {x : Session α} (h : FailsWith p x) (himp : ∀ failure, p failure → q failure) :
    FailsWith q x :=
  fun world failure hfailure => himp failure (h world failure hfailure)

lemma loadErrorsOnly {x : Session α} (h : Plain x) : LoadErrorsOnly x :=
  h.mono fun failure hplain hrefusal => by
    rw [hplain] at hrefusal
    cases hrefusal

lemma of_pure (a : α) : FailsWith p (pure a : Session α) := by
  rintro world failure ⟨⟩

lemma of_throw {failure : Failure} (h : p failure) : FailsWith p (throw failure : Session α) := by
  rintro world _ ⟨⟩
  exact h

lemma of_except {ε : Type} {failure : ε → Failure} {result : Except ε α}
    (h : ∀ error, result = .error error → p (failure error)) :
    FailsWith p (ofExcept failure result) := by
  intro world found hfound
  cases result with
  | ok a => cases hfound
  | error error =>
    cases hfound
    exact h error rfl

lemma bind {x : Session α} {f : α → Session β} (hx : FailsWith p x)
    (hf : ∀ a, FailsWith p (f a)) : FailsWith p (x >>= f) := by
  intro world failure hfailure
  rw [run_bind] at hfailure
  rcases hrun : x.run.run world with ⟨found | a, after⟩ <;> rw [hrun] at hfailure
  · cases hfailure
    exact hx world failure (by rw [hrun])
  · exact hf a after failure hfailure

lemma get_bind {f : World → Session α} (h : ∀ world, FailsWith p (f world)) :
    FailsWith p (get >>= f) :=
  fun world => h world world

lemma set_bind {world : World} {f : PUnit → Session α} (h : FailsWith p (f ⟨⟩)) :
    FailsWith p (set world >>= f) :=
  fun _ => h world

lemma of_record (event : Event) : FailsWith p (Journal.record event : Session Unit) := by
  rintro world failure ⟨⟩

lemma record_bind {event : Event} {f : Unit → Session α} (h : FailsWith p (f ())) :
    FailsWith p (Journal.record event >>= f) :=
  (of_record event).bind fun _ => h

end FailsWith

lemma plain_resolve (name : Text) : Plain (resolve name) := by
  unfold resolve expandHome
  refine .bind (.get_bind fun world => ?_) fun name => ?_
  · split
    · exact .of_pure _
    · split
      · exact .of_throw rfl
      · exact .of_throw rfl
  · split
    · exact .get_bind fun world => .of_pure _
    · exact .of_throw rfl

lemma plain_readBytes (path : Path) : Plain (readBytes path) :=
  .get_bind fun _ => .of_except fun _ _ => rfl

lemma plain_readText (path : Path) (encoding : Encoding) : Plain (readText path encoding) := by
  refine (plain_readBytes path).bind fun content => ?_
  split
  · exact .of_pure _
  · exact .of_throw rfl

lemma plain_holds (path : Path) : Plain (holds path) :=
  .get_bind fun _ => .of_except fun _ _ => rfl

lemma plain_replaceFile (replacement : Replacement) : Plain (replaceFile replacement) := by
  refine .get_bind fun world => .set_bind (.bind (.of_except fun _ _ => rfl) fun _ => ?_)
  split
  · cases replacement.path.withEnding? (replacement.backupEnding.getD []) with
    | none => exact .of_pure ()
    | some backup => exact .record_bind (.of_pure ())
  · exact .of_pure ()

lemma plain_renameFile (source target : Path) : Plain (renameFile source target) :=
  .get_bind fun _ => .bind (.of_except fun _ _ => rfl) fun _ => .set_bind (.of_pure _)

lemma plain_writeBytes (path : Path) (content : Bytes) (ending : Option Text) :
    Plain (writeBytes path content ending) :=
  (plain_replaceFile _).bind fun _ => .of_record _

lemma plain_writeText (path : Path) (text : Text) (encoding : Encoding) :
    Plain (writeText path text encoding) := by
  refine (plain_holds path).bind fun there => ?_
  rw [if_neg (by simp)]
  cases encoding.encode? text with
  | none => exact .of_throw rfl
  | some content => exact (plain_replaceFile _).bind fun _ => .of_record _

lemma plain_backupPath (path : Path) (ending : Text) : Plain (backupPath path ending) := by
  unfold backupPath
  split
  · exact .of_pure _
  · exact .of_throw rfl

lemma plain_editDefinitions (file name text : Text) (encoding : Encoding) :
    Plain (editDefinitions file name text encoding) := by
  refine (plain_resolve file).bind fun path => (plain_readText path encoding).bind fun source => ?_
  refine (plain_writeText path _ encoding).bind fun _ => ?_
  dsimp only
  split
  · exact .record_bind (.of_pure _)
  · exact .of_pure _

end Session

namespace Template

open Session

lemma plain_renderFile (path : Path) (encoding : Encoding) (texts : Table) (template : Bytes) :
    Plain (renderFile path encoding texts template) := by
  unfold renderFile
  cases render encoding texts template with
  | none => exact .of_throw rfl
  | some rendering =>
    refine .bind ?_ fun _ => .of_pure _
    induction rendering.unknown with
    | nil => exact .of_pure _
    | cons tag rest ih =>
      rw [List.forIn_cons]
      exact .bind (.record_bind (.of_pure _)) fun step => by
        cases step with
        | done _ => exact .of_pure _
        | yield _ => exact ih

lemma plain_install (path : Path) (encoding : Encoding) (texts : Table) :
    Plain (install path encoding texts) := by
  refine (plain_backupPath path backupEnding).bind fun backup => ?_
  refine (plain_holds backup).bind fun there => ?_
  have hrendered : ∀ source ending, Plain (do
      let rendering ← renderFile path encoding texts (← readBytes source)
      writeBytes path rendering.content ending
      Journal.record (.linesReplaced rendering.replaced (pathText path))
      return rendering.replaced : Session Nat) := fun source ending =>
    (plain_readBytes source).bind fun template =>
      (plain_renderFile path encoding texts template).bind fun rendering =>
        (plain_writeBytes path rendering.content ending).bind fun _ => .record_bind (.of_pure _)
  dsimp only
  split
  · exact hrendered backup none
  · exact hrendered path (some backupEnding)

lemma plain_restore (path : Path) : Plain (restore path) := by
  refine (plain_backupPath path backupEnding).bind fun backup => ?_
  refine (plain_holds backup).bind fun there => ?_
  split
  · exact (plain_renameFile backup path).bind fun _ => .record_bind (.of_pure _)
  · exact .record_bind (.of_pure _)

end Template

section Answers

open Session

/-- An address that is none is all that can be wrong with interfaces. -/
lemma eq_of_networkOf_error {candidates : List InterfaceAddress} {failure : Failure}
    (h : networkOf candidates = .error failure) : failure = .addressMalformed := by
  induction candidates with
  | nil => cases h
  | cons candidate rest ih =>
    rw [networkOf] at h
    split at h
    · exact ih h
    split at h
    · cases h
      rfl
    split at h
    · exact ih h
    · split at h <;> cases h

lemma plain_network : Plain network :=
  .get_bind fun _ => .of_except fun _ herror => by rw [id, eq_of_networkOf_error herror]; rfl

lemma plain_subnet : Plain subnet := by
  refine plain_network.bind fun found => ?_
  obtain ⟨address, netmask⟩ := found
  dsimp only
  split
  · refine .bind (.of_throw rfl) fun _ => ?_
    split
    · exact .of_pure _
    · exact .of_throw rfl
  · split
    · exact .of_pure _
    · exact .of_throw rfl

lemma plain_newIdentifier : Plain newIdentifier := by
  refine .get_bind fun world => .bind ?_ fun _ => .of_pure _
  rintro other failure ⟨⟩

lemma plain_programDirectory : Plain programDirectory := by
  refine .get_bind fun world => ?_
  split
  · exact .of_pure _
  · split
    · exact .of_throw rfl
    · exact .of_pure _

lemma plain_server (environment : Environment) : Plain environment.server := by
  unfold Environment.server
  split
  · exact .get_bind fun _ => .of_pure _
  · exact .get_bind fun _ => .of_pure _
  · exact .of_pure _

lemma plain_builtin (environment : Environment) (builtin : Builtin) :
    Plain (environment.builtin builtin) := by
  cases builtin with
  | temporary | system | machineName | hostname | processorCount =>
    exact .get_bind fun _ => .of_pure _
  | serverId => exact (plain_server environment).bind fun _ => .of_pure _
  | address | netmask => exact plain_network.bind fun _ => .of_pure _
  | subnet => exact plain_subnet.bind fun _ => .of_pure _
  | programDirectory => exact plain_programDirectory.bind fun _ => .of_pure _
  | identifier => exact plain_newIdentifier.bind fun _ => .of_pure _
  | systemRoot | systemDirectory | isWindows | isUnix | is64Bit | dataDirectory | isDebug
  | isRelease => exact .of_pure _

lemma plain_get? (environment : Environment) (name : Text) : Plain (environment.get? name) := by
  unfold Environment.get?
  split
  · exact .of_pure _
  · refine (plain_builtin environment _).bind fun found => ?_
    cases found <;> exact .of_pure _

end Answers

namespace Surrounded

open Session

/-- Failing plainly is kept by all the ways of loading. -/
def plainly : Simulation Session Session where
  rel x _ := Plain x
  pure a := .of_pure a
  bind hx hf := hx.bind hf
  record event := .of_record event

variable (config : Surrounded)

lemma answers_plainly : plainly.Answers config.external config.external := by
  unfold external
  split
  · exact ⟨rfl, plain_get? config.environment⟩
  · exact .silent

lemma loadErrorsOnly_ofLoad {α : Type} {x : ExceptT LoadError Session α}
    (h : plainly.Matches x x) : LoadErrorsOnly (ofLoad x) :=
  (FailsWith.loadErrorsOnly h).bind fun _ => .of_except fun error _ _ => ⟨error, rfl⟩

lemma loadErrorsOnly_ofExpansion {α : Type} {x : ExceptT ExpansionError Session α}
    (h : plainly.Matches x x) : LoadErrorsOnly (ofExpansion x) :=
  (FailsWith.loadErrorsOnly h).bind fun _ => .of_except fun _ _ _ => ⟨_, rfl⟩

lemma loadErrorsOnly_load (text : Text) : LoadErrorsOnly (config.load text) :=
  (loadErrorsOnly_ofLoad (Simulation.matches_load config.answers_plainly config.config text)).bind
    fun _ => .of_pure _

lemma loadErrorsOnly_loadFile (path : Path) (encoding : Encoding) :
    LoadErrorsOnly (config.loadFile path encoding) :=
  (plain_readText path encoding).loadErrorsOnly.bind fun text =>
    (config.loadErrorsOnly_load text).bind fun _ => .record_bind (.of_pure _)

lemma matches_expand_plainly (t : Text) :
    plainly.Matches (config.config.expand config.external t)
      (config.config.expand config.external t) :=
  .expandWithin (.tables config.config.macros config.config.store.items config.answers_plainly) [] t

lemma loadErrorsOnly_get? (scope : Option Text) (key : Text) :
    LoadErrorsOnly (config.get? scope key) := by
  apply loadErrorsOnly_ofExpansion
  unfold Configuration.get?
  split
  · exact .of_pure none
  · exact (config.matches_expand_plainly _).bind fun _ => .of_pure _

lemma loadErrorsOnly_items (scope : Option Text) : LoadErrorsOnly (config.items scope) := by
  apply loadErrorsOnly_ofExpansion
  apply Simulation.Matches.mapM
  intro entry
  exact (config.matches_expand_plainly _).bind fun _ => .of_pure _

end Surrounded

namespace Command

open Session

lemma loadErrorsOnly_configurationOf (file : Text) : LoadErrorsOnly (configurationOf file) := by
  refine .bind (.get_bind fun world => .of_pure _) fun environment => ?_
  exact (plain_resolve file).loadErrorsOnly.bind fun path =>
    Surrounded.loadErrorsOnly_loadFile _ path .utf8

/-- An argument that is no tag with its text: it has no equals sign, or nothing in front of it. -/
def MalformedTag (argument : Text) : Prop :=
  ∀ tag text, Text.cutAt '=' argument = some (tag, text) → Text.trim tag = []

lemma tagText_cases (argument : Text) :
    MalformedTag argument ∧ tagText argument = .error (.refusal (.tagMalformed argument)) ∨
      ¬MalformedTag argument ∧ ∃ pair, tagText argument = .ok pair := by
  unfold MalformedTag tagText
  cases hcut : Text.cutAt '=' argument with
  | none => simp
  | some parts =>
    obtain ⟨tag, text⟩ := parts
    dsimp only
    cases htrim : Text.trim tag with
    | nil => simp [htrim]
    | cons c rest => simp [htrim]

/-- Tags are refused for the first malformed one. -/
lemma mapM_tagText_cases (tags : List Text) :
    (∃ argument ∈ tags, MalformedTag argument ∧
        tags.mapM tagText = .error (.refusal (.tagMalformed argument))) ∨
      (∀ argument ∈ tags, ¬MalformedTag argument) ∧ ∃ texts, tags.mapM tagText = .ok texts := by
  induction tags with
  | nil => exact .inr ⟨by simp, [], rfl⟩
  | cons argument rest ih =>
    rw [List.mapM_cons]
    rcases tagText_cases argument with ⟨hbad, herror⟩ | ⟨hgood, pair, hpair⟩
    · exact .inl ⟨argument, List.mem_cons_self, hbad, by rw [herror]; rfl⟩
    rw [hpair]
    rcases ih with ⟨other, hmem, hbad, herror⟩ | ⟨hall, texts, htexts⟩
    · exact .inl ⟨other, List.mem_cons_of_mem _ hmem, hbad, by rw [herror]; rfl⟩
    · exact .inr ⟨List.forall_mem_cons.2 ⟨hgood, hall⟩, pair :: texts, by rw [htexts]; rfl⟩

end Command

namespace Session

variable {α β : Type} {x : Session α} {f : α → Session β} {world after : World}

lemma ends_any : x.Ends world fun _ _ => True :=
  trivial

lemma looks_readText (path : Path) (encoding : Encoding) : Looks (readText path encoding) := by
  refine (looks_readBytes path).bind fun content => ?_
  cases encoding.decode? content with
  | none => exact .of_throw _
  | some text => exact .of_pure _

/-- A session that ends with a refusal. -/
def Refuses (x : Session α) (world : World) : Prop :=
  ∃ failure, (x.run.run world).1 = .error failure ∧ failure.isRefusal

/-- A session that ends with an error of loading, other than the nesting limit of expansions. -/
def FailsToLoad (x : Session α) (world : World) : Prop :=
  ∃ error, (x.run.run world).1 = .error (.load error) ∧ error ≠ .expansion .tooDeep

lemma isRefusal_load_iff {error : LoadError} :
    (Failure.load error).isRefusal ↔ error ≠ .expansion .tooDeep := by
  rcases error with cause | ⟨_ | _⟩ <;> simp [Failure.isRefusal]

lemma refuses_iff_of_error {failure : Failure} (h : x.run.run world = (.error failure, after)) :
    x.Refuses world ↔ failure.isRefusal := by
  rw [Refuses, h]
  constructor
  · rintro ⟨_, ⟨⟩, hrefusal⟩
    exact hrefusal
  · exact fun hrefusal => ⟨failure, rfl, hrefusal⟩

lemma not_refuses_of_ok {a : α} (h : x.run.run world = (.ok a, after)) : ¬x.Refuses world := by
  rintro ⟨failure, hfailure, -⟩
  rw [h] at hfailure
  cases hfailure

lemma FailsWith.not_refuses (h : Plain x) (world : World) : ¬x.Refuses world := by
  rintro ⟨failure, hfailure, hrefusal⟩
  rw [h world failure hfailure] at hrefusal
  cases hrefusal

lemma refuses_bind_iff_of_error {failure : Failure}
    (h : x.run.run world = (.error failure, after)) :
    (x >>= f).Refuses world ↔ failure.isRefusal := by
  have hbind : (x >>= f).run.run world = (.error failure, after) := by rw [run_bind, h]
  exact refuses_iff_of_error hbind

lemma refuses_bind_iff_of_ok {a : α} (h : x.run.run world = (.ok a, after)) :
    (x >>= f).Refuses world ↔ (f a).Refuses after := by
  rw [Refuses, Refuses, run_bind_of_ok h]

/-- What follows a session and refuses nothing does not count. -/
lemma refuses_bind_iff (hf : ∀ a, Plain (f a)) : (x >>= f).Refuses world ↔ x.Refuses world := by
  rcases hrun : x.run.run world with ⟨failure | a, after⟩
  · rw [refuses_bind_iff_of_error hrun, refuses_iff_of_error hrun]
  · rw [refuses_bind_iff_of_ok hrun]
    exact iff_of_false ((hf a).not_refuses after) (not_refuses_of_ok hrun)

/-- What follows a session that looks at the world is refused in the same world. -/
lemma Looks.refuses_bind_iff (h : Looks x) (hplain : Plain x) :
    (x >>= f).Refuses world ↔ ∃ a, (x.run.run world).1 = .ok a ∧ (f a).Refuses world := by
  have hrun := h.run_eq world
  cases hresult : (x.run.run world).1 with
  | error failure =>
    rw [hresult] at hrun
    rw [refuses_bind_iff_of_error hrun, hplain world failure hresult]
    simp
  | ok a =>
    rw [hresult] at hrun
    simp [refuses_bind_iff_of_ok hrun]

lemma refuses_iff_failsToLoad (h : LoadErrorsOnly x) : x.Refuses world ↔ x.FailsToLoad world := by
  constructor
  · rintro ⟨failure, hfailure, hrefusal⟩
    obtain ⟨error, rfl⟩ := h world failure hfailure hrefusal
    exact ⟨error, hfailure, isRefusal_load_iff.1 hrefusal⟩
  · rintro ⟨error, herror, hshallow⟩
    exact ⟨_, herror, isRefusal_load_iff.2 hshallow⟩

end Session

namespace Command

open Session

/-- What a command is refused for in a world: an error of loading, in the structure of the text or
in an expansion, or a malformed tag. -/
def Refused (world : World) : Command → Prop
  | dump file scope _ =>
    FailsToLoad (do (← configurationOf file).items (scopeOf scope)) world
  | get file none _ => FailsToLoad (configurationOf file) world
  | get file (some key) _ => FailsToLoad (do (← configurationOf file).get? none key) world
  | render file tags =>
    (∃ path, ((Session.resolve file).run.run world).1 = .ok path) ∧
      ∃ argument ∈ tags, MalformedTag argument
  | restore _ | define .. => False

/-- What is done with the text of a key that was asked for. -/
def answer (key : Text) (default : Value) (text : Option Text) : Session Outcome := do
  match ← ofExcept .value (parseAs (← MonadState.get).registry text default) with
  | .text value => return .shows value
  | _ =>
    Journal.record (.keyMissing key)
    return ⟨1, []⟩

lemma execute_get (file key : Text) (default : Option Argument) :
    (get file (some key) default).execute =
      (do (← configurationOf file).get? none key) >>= answer key (defaultOf default) := by
  simp only [execute, Surrounded.getLike, bind_assoc]
  rfl

lemma plain_answer (key : Text) (default : Value) (text : Option Text) :
    Plain (answer key default text) := by
  refine .get_bind fun world => .bind (.of_except fun _ _ => rfl) fun value => ?_
  split
  · exact .of_pure _
  · exact .record_bind (.of_pure _)

/-- A command fails with a refusal exactly when it is refused for one of these. -/
lemma refuses_execute_iff (command : Command) (world : World) :
    command.execute.Refuses world ↔ command.Refused world := by
  cases command with
  | dump file scope asJson =>
    have hparts : (dump file scope asJson).execute = (do
        let entries ← (do (← configurationOf file).items (scopeOf scope))
        let entries := Record.ofPairs entries
        return .shows (if asJson then jsonListing entries else plainListing entries)) := by
      simp only [execute, bind_assoc]
    rw [hparts, refuses_bind_iff fun _ => .of_pure _, refuses_iff_failsToLoad, Refused]
    exact (loadErrorsOnly_configurationOf file).bind fun config =>
      config.loadErrorsOnly_items (scopeOf scope)
  | get file key default =>
    cases key with
    | none =>
      rw [execute, refuses_bind_iff fun _ => .of_throw rfl, refuses_iff_failsToLoad, Refused]
      exact loadErrorsOnly_configurationOf file
    | some key =>
      rw [execute_get, refuses_bind_iff (plain_answer key _), refuses_iff_failsToLoad, Refused]
      exact (loadErrorsOnly_configurationOf file).bind fun config =>
        config.loadErrorsOnly_get? none key
  | render file tags =>
    rw [execute, Refused, (looks_resolve file).refuses_bind_iff (plain_resolve file)]
    have hinstalled : ∀ path texts, Plain (do
        let count ← Template.install path .utf8 texts
        return .shows ("Rewrote ".toList ++ Text.ofNat count ++ " line(s)".toList) :
          Session Outcome) :=
      fun path texts => (Template.plain_install path .utf8 texts).bind fun _ => .of_pure _
    rcases mapM_tagText_cases tags with ⟨argument, hmem, hbad, herror⟩ | ⟨hgood, texts, htexts⟩
    · rw [herror]
      constructor
      · rintro ⟨path, hpath, -⟩
        exact ⟨⟨path, hpath⟩, argument, hmem, hbad⟩
      · rintro ⟨⟨path, hpath⟩, -⟩
        exact ⟨path, hpath, _, rfl, rfl⟩
    · rw [htexts]
      constructor
      · rintro ⟨path, -, hrefuses⟩
        exact absurd hrefuses ((hinstalled path _).not_refuses world)
      · rintro ⟨-, argument, hmem, hbad⟩
        exact absurd hbad (hgood argument hmem)
  | restore file =>
    refine iff_of_false (FailsWith.not_refuses ?_ world) id
    exact (plain_resolve file).bind fun path => (Template.plain_restore path).bind fun _ =>
      .of_pure _
  | define file name text =>
    refine iff_of_false (FailsWith.not_refuses ?_ world) id
    refine (plain_editDefinitions file (name.getD []) text .utf8).bind fun found => ?_
    split
    · exact .of_pure _
    · exact .record_bind (.of_pure _)

/-- What a command asks for in a world is not there: a key without a default, or a definition. -/
def Misses (world : World) : Command → Prop
  | get file (some key) none => ∃ config after,
      (configurationOf file).run.run world = (.ok config, after) ∧
        config.config.raw? none key = none
  | define file name _ => ∃ source,
      ((do Session.readText (← Session.resolve file) : Session Text).run.run world).1 = .ok source ∧
        hasDefinition (name.getD []) source = false
  | get _ _ _ | dump .. | render .. | restore _ => False

lemma ends_editDefinitions (file name text : Text) (world : World) :
    (Session.editDefinitions file name text).Ends world fun result _ => ∀ found,
      result = .ok found → ∃ source,
        ((do Session.readText (← Session.resolve file) : Session Text).run.run world).1 =
          .ok source ∧ found = hasDefinition name source := by
  unfold Session.editDefinitions
  apply (looks_resolve file).ends_bind
  · intro path hpath
    apply (looks_readText path .utf8).ends_bind
    · -- the text that counts is the one that was there before it is written back
      intro source hsource
      have hread : ((do Session.readText (← Session.resolve file) : Session Text).run.run world).1 =
          .ok source := by
        rw [run_bind, (looks_resolve file).run_eq, hpath]
        exact hsource
      apply ends_any.bind
      · rintro _ after -
        dsimp only
        split
        · rintro found ⟨⟩
          exact ⟨source, hread, rfl⟩
        · rintro found ⟨⟩
          exact ⟨source, hread, rfl⟩
      · rintro failure after - found ⟨⟩
    · rintro failure found ⟨⟩
  · rintro failure found ⟨⟩

lemma parseAs_list (registry : Registry) (text : Option Text) :
    parseAs registry text .list = .error (.typeUnsupported "list".toList) :=
  rfl

/-- A text is read like a text as it is, and the default stands for a missing one. -/
lemma parseAs_text (registry : Registry) (text : Option Text) (default : Text) :
    parseAs registry text (.text default) = .ok (.text (text.getD default)) := by
  cases text <;> rfl

lemma parseAs_absent (registry : Registry) (text : Option Text) :
    parseAs registry text .absent = .ok ((text.map Value.text).getD .absent) := by
  cases text <;> rfl

/-- What is answered for a key whose value was looked up: the value or the default, if one is
there. -/
lemma ends_answer (key : Text) (default : Option Argument) (text : Option Text) (world : World) :
    (answer key (defaultOf default) text).Ends world fun result _ => ∀ outcome,
      result = .ok outcome → outcome.code = 0 ∧ ¬(text = none ∧ default = none) ∨
        outcome.code = 1 ∧ text = none ∧ default = none := by
  apply ends_get_bind
  cases default with
  | none =>
    rw [defaultOf, parseAs_absent, ofExcept_ok_bind]
    cases text with
    | none =>
      rintro outcome ⟨⟩
      exact .inr ⟨rfl, rfl, rfl⟩
    | some text =>
      rintro outcome ⟨⟩
      exact .inl ⟨rfl, by simp⟩
  | some default =>
    cases default with
    | none =>
      rw [defaultOf, parseAs_list]
      rintro outcome ⟨⟩
    | some default =>
      rw [defaultOf, parseAs_text, ofExcept_ok_bind]
      rintro outcome ⟨⟩
      exact .inl ⟨rfl, by simp⟩

/-- A value is found for the keys that have one. -/
lemma always_get? (config : Surrounded) (scope : Option Text) (key : Text) :
    Always (config.get? scope key) fun text =>
      text = none ↔ config.config.raw? scope key = none := by
  unfold Surrounded.get? Configuration.get? ofExpansion
  cases config.config.raw? scope key with
  | none => exact .of_pure (by simp)
  | some raw =>
    have hfound : Always (do return some (← config.config.expand config.external raw) :
        ExceptT ExpansionError Session (Option Text)).run fun result => ∀ text, result = .ok text →
          text ≠ none := by
      apply (Always.of_any (config.config.expand config.external raw).run).bind_run
      · rintro found -
        apply Always.run_pure
        rintro text ⟨⟩
        simp
      · rintro error - text ⟨⟩
    refine hfound.bind fun result hresult => ?_
    cases result with
    | error error => exact ⟨throw (.load (.expansion error)), rfl⟩
    | ok text =>
      exact .of_pure (by simpa using hresult text rfl)

/-- What is refused is not told to be missing. -/
lemma Refused.not_misses {command : Command} {world : World} (h : command.Refused world) :
    ¬command.Misses world := by
  cases command with
  | dump | render | restore => exact id
  | define => cases h
  | get file key default =>
    cases key with
    | none => exact id
    | some key =>
      cases default with
      | some default => exact id
      | none =>
        rintro ⟨config, after, hrun, hraw⟩
        obtain ⟨error, herror, -⟩ := h
        have hfound : (config.get? none key).run.run after = (.ok none, after) := by
          unfold Surrounded.get? Configuration.get?
          rw [hraw]
          rfl
        rw [run_bind_of_ok hrun, hfound] at herror
        cases herror

/-- A command that does not fail ends with the code one when what it asked for was not there, and
else with the code zero. -/
lemma ends_execute (command : Command) (world : World) :
    command.execute.Ends world fun result _ => ∀ outcome, result = .ok outcome →
      outcome.code = 0 ∧ ¬command.Misses world ∨ outcome.code = 1 ∧ command.Misses world := by
  have hfound : Always command.execute (fun outcome => outcome.code = 0) →
      ¬command.Misses world → command.execute.Ends world fun result _ => ∀ outcome,
        result = .ok outcome →
          outcome.code = 0 ∧ ¬command.Misses world ∨ outcome.code = 1 ∧ command.Misses world := by
    intro halways hthere outcome houtcome
    exact .inl ⟨halways.of_run_session (Prod.ext houtcome rfl), hthere⟩
  cases command with
  | dump file scope asJson =>
    refine hfound ?_ id
    exact (Always.of_any _).bind fun _ _ => (Always.of_any _).bind fun _ _ => .of_pure rfl
  | get file key default =>
    cases key with
    | none =>
      apply ends_any.bind
      · rintro config after - outcome ⟨⟩
      · rintro failure after - outcome ⟨⟩
    | some key =>
      have hconfig : (configurationOf file).Ends world fun result after =>
          (configurationOf file).run.run world = (result, after) := rfl
      rw [execute_get, bind_assoc]
      apply hconfig.bind
      · intro config middle hread
        have hvalue : (config.get? none key).Ends middle fun result _ => ∀ text,
            result = .ok text → (text = none ↔ config.config.raw? none key = none) :=
          fun text htext => (always_get? config none key).of_run_session (Prod.ext htext rfl)
        apply hvalue.bind
        · intro text after htext
          apply (ends_answer key default text after).mono
          intro result last hanswer outcome houtcome
          have hmisses : (get file (some key) default).Misses world ↔
              text = none ∧ default = none := by
            rw [htext text rfl]
            cases default with
            | none =>
              constructor
              · rintro ⟨found, last, hrun, hraw⟩
                rw [hread] at hrun
                cases hrun
                exact ⟨hraw, rfl⟩
              · rintro ⟨hraw, -⟩
                exact ⟨config, middle, hread, hraw⟩
            | some default => simp [Misses]
          rw [hmisses]
          exact hanswer outcome houtcome
        · rintro failure after - outcome ⟨⟩
      · rintro failure after - outcome ⟨⟩
  | render file tags =>
    refine hfound ?_ id
    exact (Always.of_any _).bind fun _ _ => (Always.of_any _).bind fun _ _ =>
      (Always.of_any _).bind fun _ _ => .of_pure rfl
  | restore file =>
    refine hfound ?_ id
    exact (Always.of_any _).bind fun _ _ => (Always.of_any _).bind fun _ _ => .of_pure rfl
  | define file name text =>
    apply (ends_editDefinitions file (name.getD []) text world).bind
    · rintro found after hfound
      obtain ⟨source, hread, rfl⟩ := hfound found rfl
      have hmisses : (define file name text).Misses world ↔
          hasDefinition (name.getD []) source = false := by
        constructor
        · rintro ⟨other, hother, hnone⟩
          rw [hread] at hother
          cases hother
          exact hnone
        · exact fun hnone => ⟨source, hread, hnone⟩
      rw [hmisses]
      cases hasDefinition (name.getD []) source with
      | true =>
        rintro outcome ⟨⟩
        exact .inl ⟨rfl, Bool.noConfusion⟩
      | false =>
        rintro outcome ⟨⟩
        exact .inr ⟨rfl, rfl⟩
    · rintro failure after - outcome ⟨⟩

end Command

end Keyfile
