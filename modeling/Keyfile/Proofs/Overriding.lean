import Keyfile.Configuration.Context
import Keyfile.Proofs.LoadingInPlace

/-!
# Override files

The override file of a context is loaded on its own and its entries are written over those that the
sources and the provider give. Most of what can be wrong with the file leaves the configuration as
it is: no file, a directory, a text that is refused. A file whose bytes are no text, a path that
cannot be told and an answer of the environment that fails are not let be.
-/

namespace Keyfile

namespace Configuration

variable {config other : Configuration}

lemma items_overlay (config other : Configuration) :
    (config.overlay other).store.items = other.store.items.entries.foldl
      (fun table entry => table.insert entry.1 entry.2) config.store.items := by
  have hfold : ∀ (entries : List (Text × Text)) (store : Store),
      (entries.foldl (fun store entry => store.set entry.1 entry.2) store).items =
        entries.foldl (fun table entry => table.insert entry.1 entry.2) store.items := by
    intro entries
    induction entries with
    | nil => exact fun _ => rfl
    | cons entry rest ih => exact fun store => ih (store.set entry.1 entry.2)
  exact hfold _ _

/-- An overlay has the values of the upper configuration where it has any, and else those of the
lower one. -/
lemma get?_overlay (h : Distinct other.store.items.entries) (key : Text) :
    (config.overlay other).store.get? key =
      (other.store.get? key).or (config.store.get? key) := by
  rw [Store.get?, items_overlay]
  by_cases hkey : ∃ entry ∈ other.store.items.entries, Text.lower key = Text.lower entry.1
  · obtain ⟨entry, hentry, hname⟩ := hkey
    have hother : other.store.get? key = some entry.2 := by
      rw [← Table.get?_of_mem h hentry, Store.get?, Table.get?, Table.get?, hname]
    rw [Table.get?_foldl_insert_of_mem h hentry hname, hother, Option.some_or]
  · have hnone : ∀ entry ∈ other.store.items.entries, Text.lower key ≠ Text.lower entry.1 :=
      fun entry hentry hname => hkey ⟨entry, hentry, hname⟩
    have hother : other.store.get? key = none := by
      rw [Store.get?, Table.get?, Option.map_eq_none_iff, List.find?_eq_none]
      intro entry hentry hsame
      exact hnone entry hentry (by simpa using (beq_iff_eq.1 hsame).symm)
    rw [Table.get?_foldl_insert_of_notMem hnone, hother, Option.none_or, Store.get?]

end Configuration

/-- A configuration with another one laid over it, if there is one. -/
def Surrounded.under (base : Surrounded) : Option Configuration → Surrounded
  | some layer => { base with config := base.config.overlay layer }
  | none => base

namespace Session

variable {α β : Type}

/-- A session that leaves every world as it is. -/
def Looks (x : Session α) : Prop :=
  ∀ world, (x.run.run world).2 = world

namespace Looks

lemma of_pure (a : α) : Looks (pure a : Session α) :=
  fun _ => rfl

lemma of_throw (failure : Failure) : Looks (throw failure : Session α) :=
  fun _ => rfl

lemma of_except {ε : Type} (failure : ε → Failure) (result : Except ε α) :
    Looks (ofExcept failure result) :=
  fun _ => rfl

lemma get_bind {f : World → Session α} (h : ∀ world, Looks (f world)) : Looks (get >>= f) :=
  fun world => h world world

lemma bind {x : Session α} {f : α → Session β} (hx : Looks x) (hf : ∀ a, Looks (f a)) :
    Looks (x >>= f) := by
  intro world
  have hworld := hx world
  rw [run_bind]
  rcases hrun : x.run.run world with ⟨failure | a, after⟩ <;> rw [hrun] at hworld
  · exact hworld
  · exact (hf a after).trans hworld

lemma run_eq {x : Session α} (h : Looks x) (world : World) :
    x.run.run world = ((x.run.run world).1, world) :=
  Prod.ext rfl (h world)

end Looks

lemma looks_expandHome (t : Text) : Looks (expandHome t) := by
  refine .get_bind fun world => ?_
  cases Path.expandHome world.homeOf t with
  | some t => exact .of_pure t
  | none =>
    dsimp only
    split
    · exact .of_throw _
    · exact .of_throw _

lemma looks_resolve (t : Text) : Looks (resolve t) := by
  refine (looks_expandHome t).bind fun t => ?_
  split
  · exact .get_bind fun world => .of_pure _
  · exact .of_throw _

lemma looks_pathOfVariable? (name : Option Text) : Looks (pathOfVariable? name) := by
  unfold pathOfVariable?
  split
  · exact .of_pure none
  · exact .of_pure none
  · refine .get_bind fun world => ?_
    split
    · exact .of_pure none
    · exact .of_pure none
    · exact (looks_resolve _).bind fun path => .of_pure (some path)

end Session

lemma Session.run_attempt {α : Type} (x : Session α) (world : World) :
    (Session.attempt x).run.run world = (.ok (x.run.run world).1, (x.run.run world).2) :=
  rfl

/-- Whatever keeps a file from being read is a failure of the files as they stand. -/
lemma FileTree.isOfFiles_of_read {tree : FileTree} {path : Path} {error : FileError}
    (h : tree.read path = .error error) : (Failure.file error).isOfFiles = true := by
  unfold read at h
  split at h
  · cases h
  · cases h
    rfl
  · obtain rfl : tree.missing path = error := Except.error.inj h
    unfold missing
    repeat' split
    all_goals rfl

lemma Session.run_readText_eq (path : Path) (world : World) :
    (Session.readText path).run.run world =
      match world.files.read path with
      | .error error => (.error (.file error), world)
      | .ok content =>
        match Encoding.utf8.decode? content with
        | some text => (.ok (Text.normalizeNewlines text), world)
        | none => (.error .undecodable, world) := by
  have hbytes : (Session.readBytes path).run.run world =
      ((world.files.read path).mapError .file, world) := rfl
  rw [Session.readText, Session.run_bind, hbytes]
  rcases world.files.read path with error | content
  · rfl
  · dsimp only [Except.mapError]
    rcases Encoding.utf8.decode? content with _ | text <;> rfl

namespace Context

variable (context : Context) (world : World)

/-- The configuration that the sources and the provider make, before the override file has a say. -/
def base : Session Surrounded := do
  let own ← context.build (← context.sourceText)
  match ← Provider.customText own with
  | some text => context.build text
  | none => pure own

lemma assemble_eq_base :
    context.assemble = do
      let base ← context.base
      match ← context.override? with
      | some layer => return { base with config := base.config.overlay layer }
      | none => return base := by
  simp only [assemble, base, bind_assoc]
  refine bind_congr fun source => bind_congr fun own => bind_congr fun found => ?_
  cases found <;> rfl

/-- The path that the override variable names in a world, none when it is not set. -/
def overridePath : Except Failure (Option Path) :=
  ((Session.pathOfVariable? context.overrideVariable).run.run world).1

/-- The text of the override file, when there is such a file and its bytes are a text. -/
def OverrideText (text : Text) : Prop :=
  ∃ path content, context.overridePath world = .ok (some path) ∧
    world.files.read path = .ok content ∧ Encoding.utf8.decode? content = some text

/-- The configuration that the override file makes on its own, when it makes one. -/
def OverrideLayer (layer : Surrounded) : Prop :=
  ∃ text, context.OverrideText world text ∧
    ((context.build (Text.normalizeNewlines text)).run.run world).1 = .ok layer

/-- The override file does no harm: its path can be told, its bytes are a text if it can be read, and
nothing but a refusal keeps its text from loading. -/
structure OverrideHarmless : Prop where
  named : ∃ path, context.overridePath world = .ok path
  decodes : ∀ path content, context.overridePath world = .ok (some path) →
    world.files.read path = .ok content → (Encoding.utf8.decode? content).isSome
  loads : ∀ text failure, context.OverrideText world text →
    ((context.build (Text.normalizeNewlines text)).run.run world).1 = .error failure →
    failure.isOfFiles || failure.isRefusal

lemma run_fresh : ∃ fresh, context.fresh.run.run world = (.ok fresh, world) ∧ fresh.config = {} := by
  unfold fresh
  cases context.environment with
  | none => exact ⟨_, rfl, rfl⟩
  | some environment => exact ⟨_, rfl, rfl⟩

/-- Loading a file into a fresh configuration reads it and builds from its text. -/
lemma run_loadFile_fresh (path : Path) :
    ((do (← context.fresh).loadFile path) : Session Surrounded).run.run world =
      match world.files.read path with
      | .error error => (.error (.file error), world)
      | .ok content =>
        match Encoding.utf8.decode? content with
        | some text =>
          ((do
            let loaded ← context.build (Text.normalizeNewlines text)
            Journal.record (.fileLoaded (Session.pathText path))
            return loaded) : Session Surrounded).run.run world
        | none => (.error .undecodable, world) := by
  obtain ⟨fresh, hfresh, -⟩ := context.run_fresh world
  rw [Session.run_bind_of_ok hfresh, Surrounded.loadFile, Session.run_bind,
    Session.run_readText_eq]
  rcases world.files.read path with error | content
  · rfl
  dsimp only
  rcases Encoding.utf8.decode? content with _ | text
  · rfl
  dsimp only
  rw [build, bind_assoc, Session.run_bind_of_ok hfresh]

/-- What is recorded after a build does not change its result. -/
lemma result_build_record (text : Text) (event : Event) :
    (((do
      let loaded ← context.build text
      Journal.record event
      return loaded) : Session Surrounded).run.run world).1 =
      ((context.build text).run.run world).1 := by
  rw [Session.run_bind]
  rcases (context.build text).run.run world with ⟨failure | loaded, after⟩ <;> rfl

lemma result_override? :
    ((context.override?).run.run world).1 =
      match context.overridePath world with
      | .error failure => .error failure
      | .ok none => .ok none
      | .ok (some path) =>
        match (((do (← context.fresh).loadFile path) : Session Surrounded).run.run world).1 with
        | .ok layer => .ok (some layer.config)
        | .error failure =>
          if failure.isOfFiles || failure.isRefusal then .ok none else .error failure := by
  have hpath : (Session.pathOfVariable? context.overrideVariable).run.run world =
      (context.overridePath world, world) :=
    (Session.looks_pathOfVariable? context.overrideVariable).run_eq world
  rw [override?, Session.run_bind, hpath]
  rcases context.overridePath world with failure | _ | path
  · rfl
  · rfl
  dsimp only
  rw [Session.run_bind, Session.run_attempt]
  rcases ((do (← context.fresh).loadFile path) : Session Surrounded).run.run world with
    ⟨failure | layer, after⟩
  · dsimp only
    split <;> rfl
  · rfl

/-- What the override file of a context comes to in a world: a configuration, none, or a failure. -/
inductive OverrideState : Except Failure (Option Configuration) → Prop
  | untold {failure : Failure} (hpath : context.overridePath world = .error failure) :
      OverrideState (.error failure)
  | unset (hpath : context.overridePath world = .ok none) : OverrideState (.ok none)
  | unreadable {path : Path} {error : FileError}
      (hpath : context.overridePath world = .ok (some path))
      (hread : world.files.read path = .error error) : OverrideState (.ok none)
  | undecodable {path : Path} {content : Bytes}
      (hpath : context.overridePath world = .ok (some path))
      (hread : world.files.read path = .ok content)
      (hdecode : Encoding.utf8.decode? content = none) : OverrideState (.error .undecodable)
  | refused {text : Text} {failure : Failure} (htext : context.OverrideText world text)
      (hbuild : ((context.build (Text.normalizeNewlines text)).run.run world).1 = .error failure)
      (hfailure : failure.isOfFiles || failure.isRefusal) : OverrideState (.ok none)
  | stopped {text : Text} {failure : Failure} (htext : context.OverrideText world text)
      (hbuild : ((context.build (Text.normalizeNewlines text)).run.run world).1 = .error failure)
      (hfailure : ¬(failure.isOfFiles || failure.isRefusal)) : OverrideState (.error failure)
  | loaded {text : Text} {layer : Surrounded} (htext : context.OverrideText world text)
      (hbuild : ((context.build (Text.normalizeNewlines text)).run.run world).1 = .ok layer) :
      OverrideState (.ok (some layer.config))

/-- Every override file is in one of these states, whatever stands under its path. -/
lemma override?_state : context.OverrideState world ((context.override?).run.run world).1 := by
  rw [result_override?]
  rcases hpath : context.overridePath world with failure | _ | path
  · exact .untold hpath
  · exact .unset hpath
  dsimp only
  rw [run_loadFile_fresh]
  rcases hread : world.files.read path with error | content
  · have herror : (Failure.file error).isOfFiles = true := FileTree.isOfFiles_of_read hread
    simp only [herror, Bool.true_or, if_true]
    exact .unreadable hpath hread
  dsimp only
  rcases hdecode : Encoding.utf8.decode? content with _ | text
  · exact .undecodable hpath hread hdecode
  have htext : context.OverrideText world text := ⟨path, content, hpath, hread, hdecode⟩
  dsimp only
  rw [result_build_record]
  rcases hbuild : ((context.build (Text.normalizeNewlines text)).run.run world).1 with
    failure | layer
  · dsimp only
    split
    · rename_i hfailure
      exact .refused htext hbuild hfailure
    · rename_i hfailure
      exact .stopped htext hbuild hfailure
  · exact .loaded htext hbuild

variable {context world}

lemma OverrideText.eq {text other : Text} (h : context.OverrideText world text)
    (hother : context.OverrideText world other) : text = other := by
  obtain ⟨path, content, hpath, hread, hdecode⟩ := h
  obtain ⟨path', content', hpath', hread', hdecode'⟩ := hother
  obtain rfl : path = path' := Option.some.inj (Except.ok.inj (hpath.symm.trans hpath'))
  obtain rfl : content = content' := Except.ok.inj (hread.symm.trans hread')
  exact Option.some.inj (hdecode.symm.trans hdecode')

lemma OverrideLayer.eq {layer other : Surrounded} (h : context.OverrideLayer world layer)
    (hother : context.OverrideLayer world other) : layer = other := by
  obtain ⟨text, htext, hbuild⟩ := h
  obtain ⟨text', htext', hbuild'⟩ := hother
  obtain rfl := htext.eq htext'
  exact Except.ok.inj (hbuild.symm.trans hbuild')

/-- An override that cannot be read does no harm. -/
lemma harmless_of_unread {path : Option Path} (hpath : context.overridePath world = .ok path)
    (hread : ∀ file, path = some file → ∃ error, world.files.read file = .error error) :
    context.OverrideHarmless world := by
  have hnever : ∀ file content, context.overridePath world = .ok (some file) →
      world.files.read file ≠ .ok content := by
    intro file content hfile hcontent
    obtain ⟨error, herror⟩ := hread file (Except.ok.inj (hpath.symm.trans hfile))
    rw [herror] at hcontent
    cases hcontent
  refine ⟨⟨path, hpath⟩, ?_, ?_⟩
  · intro file content hfile hcontent
    exact absurd hcontent (hnever file content hfile)
  · rintro text failure ⟨file, content, hfile, hcontent, -⟩
    exact absurd hcontent (hnever file content hfile)

/-- An override that is a text does no harm when the text loads or is refused. -/
lemma OverrideText.harmless {text : Text} (h : context.OverrideText world text)
    (hloads : ∀ failure,
      ((context.build (Text.normalizeNewlines text)).run.run world).1 = .error failure →
      failure.isOfFiles || failure.isRefusal) : context.OverrideHarmless world := by
  obtain ⟨path, content, hpath, hread, hdecode⟩ := id h
  refine ⟨⟨some path, hpath⟩, ?_, ?_⟩
  · intro file bytes hfile hbytes
    obtain rfl : path = file := Option.some.inj (Except.ok.inj (hpath.symm.trans hfile))
    obtain rfl : content = bytes := Except.ok.inj (hread.symm.trans hbytes)
    rw [hdecode]
    rfl
  · intro other failure hother hbuild
    obtain rfl := h.eq hother
    exact hloads failure hbuild

/-- An override file does no harm exactly when looking for it does not fail. -/
lemma OverrideState.harmless_iff {result : Except Failure (Option Configuration)}
    (h : context.OverrideState world result) :
    context.OverrideHarmless world ↔ ∃ found, result = .ok found := by
  cases h with
  | untold hpath =>
    refine iff_of_false ?_ (by rintro ⟨found, ⟨⟩⟩)
    intro hharmless
    obtain ⟨path, hok⟩ := hharmless.named
    cases hpath.symm.trans hok
  | unset hpath => exact iff_of_true (harmless_of_unread hpath fun _ h => nomatch h) ⟨none, rfl⟩
  | unreadable hpath hread =>
    refine iff_of_true (harmless_of_unread hpath ?_) ⟨none, rfl⟩
    rintro file ⟨⟩
    exact ⟨_, hread⟩
  | undecodable hpath hread hdecode =>
    refine iff_of_false ?_ (by rintro ⟨found, ⟨⟩⟩)
    intro hharmless
    have hsome := hharmless.decodes _ _ hpath hread
    rw [hdecode] at hsome
    cases hsome
  | refused htext hbuild hfailure =>
    refine iff_of_true (htext.harmless fun failure herror => ?_) ⟨none, rfl⟩
    obtain rfl := Except.error.inj (hbuild.symm.trans herror)
    exact hfailure
  | stopped htext hbuild hfailure =>
    refine iff_of_false ?_ (by rintro ⟨found, ⟨⟩⟩)
    intro hharmless
    exact hfailure (hharmless.loads _ _ htext hbuild)
  | loaded htext hbuild =>
    refine iff_of_true (htext.harmless fun failure herror => ?_) ⟨_, rfl⟩
    cases hbuild.symm.trans herror

/-- What is found is the configuration of the layer, and nothing is found exactly when there is no
layer. -/
lemma OverrideState.layer {found : Option Configuration}
    (h : context.OverrideState world (.ok found)) :
    (∀ layer, context.OverrideLayer world layer → found = some layer.config) ∧
      ((∀ layer, ¬context.OverrideLayer world layer) → found = none) := by
  cases h with
  | unset hpath =>
    refine ⟨?_, fun _ => rfl⟩
    rintro layer ⟨text, ⟨path, content, hother, -⟩, -⟩
    cases hpath.symm.trans hother
  | unreadable hpath hread =>
    refine ⟨?_, fun _ => rfl⟩
    rintro layer ⟨text, ⟨path, content, hother, hcontent, -⟩, -⟩
    cases hpath.symm.trans hother
    cases hread.symm.trans hcontent
  | refused htext hbuild hfailure =>
    refine ⟨?_, fun _ => rfl⟩
    rintro layer ⟨text, hother, hlayer⟩
    obtain rfl := htext.eq hother
    cases hbuild.symm.trans hlayer
  | @loaded text layer htext hbuild =>
    have hlayer : context.OverrideLayer world layer := ⟨text, htext, hbuild⟩
    exact ⟨fun other hother => by rw [hlayer.eq hother], fun hnone => absurd hlayer (hnone layer)⟩

lemma OverrideLayer.distinct {layer : Surrounded} (h : context.OverrideLayer world layer) :
    Distinct layer.config.store.items.entries := by
  obtain ⟨text, -, hbuild⟩ := h
  obtain ⟨fresh, hfresh, hempty⟩ := context.run_fresh world
  have hload : ((fresh.load (Text.normalizeNewlines text)).run.run world).1 = .ok layer := by
    rw [← hbuild, build, Session.run_bind_of_ok hfresh]
  have hbuilt : fresh.config.Built := by
    rw [hempty]
    exact .empty
  exact (Surrounded.built_of_load hbuilt (Prod.ext hload rfl)).distincts.items

variable {between : World} {base : Surrounded}

lemma result_configuration (hnew : context.loaded = none)
    (hbase : context.base.run.run world = (.ok base, between)) :
    (context.configuration.run.run world).1.map (·.1) =
      ((context.override?).run.run between).1.map base.under := by
  rw [configuration, hnew]
  dsimp only
  rw [Session.run_bind, assemble_eq_base, Session.run_bind_of_ok hbase, Session.run_bind]
  rcases (context.override?).run.run between with ⟨failure | _ | layer, after⟩ <;> rfl

/-- While the base configuration loads, an access succeeds exactly when the override file does no
harm. It gives the raw values of the override's own configuration where that has any and those of
the base everywhere else, with the macros of the base; when the override makes no configuration on
its own, it gives the base. -/
theorem configuration_override (hnew : context.loaded = none)
    (hbase : context.base.run.run world = (.ok base, between)) :
    (context.OverrideHarmless between ↔
      ∃ access, (context.configuration.run.run world).1 = .ok access) ∧
    ∀ final owner, (context.configuration.run.run world).1 = .ok (final, owner) →
      (∀ layer, context.OverrideLayer between layer →
        (∀ key, final.config.store.get? key =
          (layer.config.store.get? key).or (base.config.store.get? key)) ∧
        final.config.macros = base.config.macros) ∧
      ((∀ layer, ¬context.OverrideLayer between layer) → final = base) := by
  have hresult := result_configuration hnew hbase
  have hstate := context.override?_state between
  rcases hfound : ((context.override?).run.run between).1 with failure | found <;>
    rw [hfound] at hresult hstate
  · rcases haccess : (context.configuration.run.run world).1 with failure' | access <;>
      rw [haccess] at hresult
    · exact ⟨hstate.harmless_iff.trans (by simp), by rintro final owner ⟨⟩⟩
    · cases hresult
  · rcases haccess : (context.configuration.run.run world).1 with failure' | access <;>
      rw [haccess] at hresult
    · cases hresult
    refine ⟨hstate.harmless_iff.trans (by simp), ?_⟩
    rintro final owner ⟨⟩
    obtain rfl : final = base.under found := Except.ok.inj hresult
    obtain ⟨hsome, hnone⟩ := hstate.layer
    constructor
    · intro layer hlayer
      obtain rfl := hsome layer hlayer
      exact ⟨Configuration.get?_overlay hlayer.distinct, rfl⟩
    · intro hnever
      obtain rfl := hnone hnever
      rfl

def tunedContext : Context where
  text := some "k = base\nlist[0] = x\nlist[1] = y".toList
  environment := some {}

def tunedBase : Surrounded where
  config := { store := .ofItems ⟨[("k".toList, "base".toList), ("list[0]".toList, "x".toList),
    ("list[1]".toList, "y".toList)]⟩ }

/-- A world in which the override variable names a file with the given bytes. -/
def overridingWorld (content : Bytes) : World :=
  { (default : World) with
    processEnvironment := [("CONFPP_OVERRIDE".toList, "ov".toList)]
    files := ⟨[(["ov".toList], .file content)]⟩ }

/-- A key in another spelling and a value that waits for the first position. -/
def tuningText : Text := "K = over\nlist[-] = new".toList

def tuningLayer : Surrounded where
  config := { store := .ofItems ⟨[("K".toList, "over".toList), ("list[0]".toList, "new".toList)]⟩ }

/-- The override has its say at its key and at the first position, and nowhere else. -/
theorem configuration_override_tuned :
    ∃ final owner,
      (tunedContext.configuration.run.run
        (overridingWorld (tuningText.flatMap Encoding.utf8Bytes))).1 = .ok (final, owner) ∧
      final.config.store.get? "k".toList = some "over".toList ∧
      final.config.store.get? "list[0]".toList = some "new".toList ∧
      final.config.store.get? "list[1]".toList = some ['y'] ∧ final.config.macros = {} := by
  have hbase : tunedContext.base.run.run
      (overridingWorld (tuningText.flatMap Encoding.utf8Bytes)) =
        (.ok tunedBase, overridingWorld (tuningText.flatMap Encoding.utf8Bytes)) := by rfl
  have htext : tunedContext.OverrideText
      (overridingWorld (tuningText.flatMap Encoding.utf8Bytes)) tuningText :=
    ⟨["ov".toList], tuningText.flatMap Encoding.utf8Bytes, by rfl, by rfl, by decide +kernel⟩
  have hbuild : ((tunedContext.build (Text.normalizeNewlines tuningText)).run.run
      (overridingWorld (tuningText.flatMap Encoding.utf8Bytes))).1 = .ok tuningLayer := by rfl
  have hharmless := htext.harmless fun failure herror => by cases hbuild.symm.trans herror
  obtain ⟨hreturns, hresult⟩ := configuration_override (by rfl) hbase
  obtain ⟨⟨final, owner⟩, haccess⟩ := hreturns.1 hharmless
  obtain ⟨hlayer, -⟩ := hresult final owner haccess
  obtain ⟨hget, hmacros⟩ := hlayer tuningLayer ⟨tuningText, htext, hbuild⟩
  exact ⟨final, owner, haccess, (hget _).trans (by decide +kernel),
    (hget _).trans (by decide +kernel), (hget _).trans (by decide +kernel), hmacros⟩

/-- An override file whose bytes are no text breaks a configuration that is sound without it. -/
theorem configuration_undecodableOverride :
    ((tunedContext.base.run.run (overridingWorld [0xff])).1.map fun base =>
        base.config.entries none) = .ok (tunedBase.config.entries none) ∧
      ((tunedContext.configuration.run.run (overridingWorld [0xff])).1.map fun _ => ()) =
        .error .undecodable := by
  decide +kernel

end Context

end Keyfile
