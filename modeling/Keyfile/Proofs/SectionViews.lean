import Keyfile.Configuration.Surroundings
import Keyfile.Proofs.LineBreaks
import Keyfile.Proofs.Views

/-!
# Sections of views and the keys they share

The scope of a section is the scope of its view with the section's name behind a period, so a chain
of sections comes to the section of the joined names. Views of one configuration read and write its
one store under full names: what a view reads is what the last call of that full name left,
whichever view the call went through.
-/

namespace Keyfile

open Text

/-- The name of a section: trimmed, and without a period at its start or its end. -/
structure SectionName (name : Text) : Prop where
  trimmed : trim name = name
  ne_nil : name ≠ []
  start : name.head? ≠ some '.'
  unended : name.getLast? ≠ some '.'

instance (name : Text) : Decidable (SectionName name) :=
  decidable_of_iff (trim name = name ∧ name ≠ [] ∧ name.head? ≠ some '.' ∧
      name.getLast? ≠ some '.')
    ⟨fun ⟨htrim, hne, hstart, hlast⟩ => ⟨htrim, hne, hstart, hlast⟩,
      fun h => ⟨h.trimmed, h.ne_nil, h.start, h.unended⟩⟩

/-- A key that is not blank and does not begin with a period. -/
structure OwnKey (key : Text) : Prop where
  start : key.head? ≠ some '.'
  solid : isAllBlank key = false

instance (key : Text) : Decidable (OwnKey key) :=
  decidable_of_iff (key.head? ≠ some '.' ∧ isAllBlank key = false)
    ⟨fun ⟨hstart, hsolid⟩ => ⟨hstart, hsolid⟩, fun h => ⟨h.start, h.solid⟩⟩

/-- A scope that a view can have begins with no blank. -/
structure KeptName (name : Text) : Prop extends ScopeName name where
  trimmedStart : trimStart name = name

lemma OwnKey.plain {key : Text} (h : OwnKey key) (scope : Option Text) : PlainKey scope key := by
  cases scope with
  | none => exact fun hhead => absurd hhead h.start
  | some scope => exact ⟨h.start, h.solid⟩

namespace SectionName

variable {name : Text} (h : SectionName name)
include h

lemma exists_cons : ∃ c rest, name = c :: rest ∧ isBlank c = false ∧ c ≠ '.' := by
  obtain ⟨c, rest, rfl⟩ := List.exists_cons_of_ne_nil h.ne_nil
  exact ⟨c, rest, rfl, isBlank_of_trim_eq_cons h.trimmed, fun heq => h.start (heq ▸ rfl)⟩

/-- A key below a section is a key of its own, also in front of which the section stands. -/
lemma ownKey_append (rest : Text) : OwnKey (name ++ rest) := by
  obtain ⟨c, tail, rfl, hblank, hperiod⟩ := h.exists_cons
  exact ⟨fun hhead => hperiod (Option.some.inj hhead), by simp [isAllBlank, hblank]⟩

lemma ownKey : OwnKey name := by
  simpa using h.ownKey_append []

lemma append {other : Text} (hother : SectionName other) :
    SectionName (name ++ '.' :: other) where
  trimmed := by
    rw [trim_append_cons (by decide), trimStart_eq_self h.trimmed,
      trimEnd_eq_self hother.trimmed]
  ne_nil := List.append_ne_nil_of_left_ne_nil h.ne_nil _
  start := (h.ownKey_append _).start
  unended := by
    rw [List.getLast?_append_of_ne_nil _ (List.cons_ne_nil _ _),
      List.getLast?_cons_of_ne_nil hother.ne_nil]
    exact hother.unended

end SectionName

lemma keptName_of_normalizeScope {given : Option Text} {name : Text}
    (h : normalizeScope given = some name) : KeptName name := by
  have hname := scopeName_of_normalizeScope h
  refine { hname with trimmedStart := trimStart_eq_self_iff.2 fun c hc => ?_ }
  obtain ⟨rest, rfl⟩ := List.head?_eq_some_iff.1 hc
  unfold normalizeScope at h
  split at h
  · cases h
  · rename_i given
    split at h
    · cases h
    · have hbelow : c :: rest <+: trim given :=
        Option.some.inj h ▸ List.rdropWhile_prefix _ _
      obtain ⟨after, htrim⟩ := hbelow
      exact isBlank_of_trim_eq_cons htrim.symm

lemma normalizeScope_of_trimmed {name : Text} (htrim : trim name = name) (hne : name ≠ [])
    (hlast : name.getLast? ≠ some '.') : normalizeScope (some name) = some name := by
  have hkept : dropTail (· == '.') (trim name) = name := by
    rw [htrim]
    apply List.rdropWhile_eq_self_iff.2
    intro hne hended
    apply hlast
    rw [List.getLast?_eq_some_getLast hne]
    simpa using hended
  rw [normalizeScope, hkept]
  split
  · exact absurd rfl hne
  · rfl

/-- A name below a scope, if there is one. -/
def below (scope : Option Text) (name : Text) : Text :=
  join ['.'] (scope.toList ++ [name])

lemma join_below (scope : Option Text) (name : Text) (others : List Text) :
    join ['.'] (below scope name :: others) = join ['.'] (scope.toList ++ name :: others) := by
  cases scope with
  | none => rfl
  | some scope => cases others <;> simp [below, join]

lemma below_append (scope : Option Text) (name key : Text) :
    below scope (name ++ '.' :: key) = below (some (below scope name)) key := by
  cases scope <;> simp [below, join]

namespace Configuration

variable {scope : Option Text} {name key : Text}

lemma qualify_eq_below (hscope : ∀ kept ∈ scope, ScopeName kept) (hkey : OwnKey key) :
    Key.qualify scope key = below scope key := by
  cases scope with
  | none => exact qualify_none_of_plain (hkey.plain none)
  | some scope =>
    rw [(hscope scope rfl).qualify_eq (hkey.plain (some scope))]
    simp [below, join]

/-- The scope of a section is its name below the scope of the view. -/
lemma section_eq (hscope : ∀ kept ∈ scope, KeptName kept) (hname : SectionName name) :
    section_ scope (some name) = some (below scope name) := by
  obtain ⟨c, rest, hcons, hblank, hperiod⟩ := hname.exists_cons
  have hletters : (name.all fun c => c == ' ' || c == '.') = false := by
    have hspace : c ≠ ' ' := by
      rintro rfl
      exact absurd hblank (by decide)
    simp [hcons, hspace, hperiod]
  rw [section_, hletters, qualify_eq_below (fun kept hkept => (hscope kept hkept).toScopeName)
    hname.ownKey]
  cases scope with
  | none => exact normalizeScope_of_trimmed hname.trimmed hname.ne_nil hname.unended
  | some scope =>
    have hbelow : below (some scope) name = scope ++ '.' :: name := by simp [below, join]
    rw [hbelow]
    apply normalizeScope_of_trimmed
    · rw [trim_append_cons (by decide), (hscope scope rfl).trimmedStart,
        trimEnd_eq_self hname.trimmed]
    · simp
    · rw [List.getLast?_append_of_ne_nil _ (List.cons_ne_nil _ _),
        List.getLast?_cons_of_ne_nil hname.ne_nil]
      exact hname.unended

lemma keptName_section (scope : Option Text) (name : Text) :
    ∀ kept ∈ section_ scope (some name), KeptName kept := by
  intro kept hkept
  unfold section_ at hkept
  split at hkept
  · cases hkept
  · split at hkept
    · cases hkept
    · exact keptName_of_normalizeScope hkept

end Configuration

/-- A view of a configuration: the scope it was given, and the sections it was asked for, one after
the other. -/
structure ViewPath where
  given : Option Text
  sections : List Text

namespace ViewPath

def scope (view : ViewPath) : Option Text :=
  view.sections.foldl (fun scope name => Configuration.section_ scope (some name))
    (normalizeScope view.given)

def fullName (view : ViewPath) (key : Text) : Text :=
  join ['.'] ((normalizeScope view.given).toList ++ view.sections ++ [key])

lemma scope_spec {sections : List Text} (hsections : ∀ name ∈ sections, SectionName name)
    {scope : Option Text} (hscope : ∀ kept ∈ scope, KeptName kept) (key : Text) :
    (∀ kept ∈ sections.foldl (fun scope name => Configuration.section_ scope (some name)) scope,
        KeptName kept) ∧
      below (sections.foldl (fun scope name => Configuration.section_ scope (some name)) scope)
        key = join ['.'] (scope.toList ++ sections ++ [key]) := by
  induction sections generalizing scope with
  | nil => exact ⟨hscope, by rw [List.append_nil]; rfl⟩
  | cons name rest ih =>
    obtain ⟨hname, hrest⟩ := List.forall_mem_cons.1 hsections
    obtain ⟨hkept, hbelow⟩ := ih hrest (Configuration.keptName_section scope name)
    refine ⟨hkept, hbelow.trans ?_⟩
    rw [Configuration.section_eq hscope hname, List.append_assoc, List.append_assoc,
      List.cons_append, ← join_below]
    rfl

/-- A view reads and writes its keys under their full names. -/
lemma qualify_eq {view : ViewPath} (hsections : ∀ name ∈ view.sections, SectionName name)
    {key : Text} (hkey : OwnKey key) : Key.qualify view.scope key = view.fullName key := by
  have hgiven : ∀ kept ∈ normalizeScope view.given, KeptName kept :=
    fun kept hkept => keptName_of_normalizeScope hkept
  obtain ⟨hkept, hbelow⟩ := scope_spec hsections hgiven key
  rw [scope, Configuration.qualify_eq_below (fun kept h => (hkept kept h).toScopeName) hkey,
    hbelow]
  rfl

end ViewPath

/-- A call on a view, which stores a value under a key or removes the key. -/
structure ViewCall where
  view : ViewPath
  key : Text
  value : Option Value

namespace ViewCall

def apply (surrounded : Surrounded) (call : ViewCall) : Surrounded :=
  match call.value with
  | some value => surrounded.store call.view.scope call.key value
  | none => { surrounded with config := surrounded.config.remove call.view.scope call.key }

/-- What is stored under the key after the call. -/
def left? (call : ViewCall) : Option Text :=
  match call.value with
  | none | some .absent => none
  | some value => some value.stored

/-- The view was asked for proper sections, and the key is one of its own. -/
structure WellNamed (call : ViewCall) : Prop where
  sections : ∀ name ∈ call.view.sections, SectionName name
  key : OwnKey call.key

/-- What the last call of a full name left there, if there was one. -/
def lastLeft? (calls : List ViewCall) (name : Text) : Option (Option Text) :=
  calls.reverse.findSome? fun call =>
    if sameName (call.view.fullName call.key) name then some call.left? else none

/-- The configuration after the calls, from left to right. -/
def run (calls : List ViewCall) (surrounded : Surrounded) : Surrounded :=
  calls.foldl apply surrounded

lemma get?_apply {call : ViewCall} (hcall : call.WellNamed) (surrounded : Surrounded)
    (name : Text) : (call.apply surrounded).config.store.get? name =
      if sameName (call.view.fullName call.key) name then call.left?
      else surrounded.config.store.get? name := by
  obtain ⟨view, key, value⟩ := call
  have hfull : Key.qualify view.scope key = view.fullName key :=
    ViewPath.qualify_eq hcall.sections hcall.key
  have hsame : sameName (view.fullName key) name = true ↔
      lower name = lower (Key.qualify view.scope key) := by
    rw [sameName_iff, hfull, eq_comm]
  simp only [hsame]
  rcases value with - | value
  · exact Table.get?_erase _ _ _
  · cases value with
    | absent => exact Table.get?_erase _ _ _
    | _ => exact Table.get?_insert _ _ _ _

/-- After calls on views a full name has what the last call of the name left. -/
lemma get?_run {calls : List ViewCall} (hcalls : ∀ call ∈ calls, call.WellNamed)
    (surrounded : Surrounded) (name : Text) :
    (run calls surrounded).config.store.get? name =
      (lastLeft? calls name).getD (surrounded.config.store.get? name) := by
  induction calls using List.reverseRecOn with
  | nil => rfl
  | append_singleton calls call ih =>
    have hlast : call.WellNamed := hcalls call (by simp)
    have hcalls := ih fun other hother => hcalls other (by simp [hother])
    rw [run] at hcalls ⊢
    rw [List.foldl_append, List.foldl_cons, List.foldl_nil, get?_apply hlast, hcalls, lastLeft?,
      lastLeft?, List.reverse_append, List.reverse_singleton, List.singleton_append,
      List.findSome?_cons]
    split
    · rfl
    · rfl

/-- Two sections one after the other are the section of the joined names, and a key of a section is
the key of the view with the section's name in front. After calls on any views both are read as the
last call of their full name left them, and as before the calls when there was none. -/
theorem raw?_run {calls : List ViewCall} (hcalls : ∀ call ∈ calls, call.WellNamed)
    {a b key : Text} (ha : SectionName a) (hb : SectionName b) (hkey : OwnKey key)
    (given : Option Text) (surrounded : Surrounded) :
    Configuration.section_ (Configuration.section_ (normalizeScope given) (some a)) (some b) =
        Configuration.section_ (normalizeScope given) (some (a ++ '.' :: b)) ∧
      (run calls surrounded).config.raw?
          (Configuration.section_ (normalizeScope given) (some a)) key =
        (run calls surrounded).config.raw? (normalizeScope given) (a ++ '.' :: key) ∧
      (run calls surrounded).config.raw? (normalizeScope given) (a ++ '.' :: key) =
        (lastLeft? calls (ViewPath.fullName ⟨given, [a]⟩ key)).getD
          (surrounded.config.raw? (normalizeScope given) (a ++ '.' :: key)) := by
  have hgiven : ∀ kept ∈ normalizeScope given, KeptName kept :=
    fun kept hkept => keptName_of_normalizeScope hkept
  have hsection := Configuration.section_eq hgiven ha
  have hjoined : Key.qualify (normalizeScope given) (a ++ '.' :: key) =
      ViewPath.fullName ⟨given, [a]⟩ key := by
    rw [Configuration.qualify_eq_below (fun kept hkept => (hgiven kept hkept).toScopeName)
      (ha.ownKey_append _), below_append, ← hsection]
    exact (ViewPath.scope_spec (List.forall_mem_singleton.2 ha) hgiven key).2
  refine ⟨?_, ?_, ?_⟩
  · rw [Configuration.section_eq hgiven (ha.append hb), below_append, ← hsection]
    exact Configuration.section_eq (Configuration.keptName_section _ a) hb
  · rw [Configuration.raw?, Configuration.raw?, hjoined]
    exact congrArg _ (@ViewPath.qualify_eq ⟨given, [a]⟩ (List.forall_mem_singleton.2 ha) _ hkey)
  · rw [Configuration.raw?, Configuration.raw?, hjoined]
    exact get?_run hcalls surrounded _

/-- One full name in four spellings, through views with and without a scope. -/
def portCalls : List ViewCall :=
  [⟨⟨some " Site. ".toList, ["Db".toList, "Main".toList]⟩, "port".toList, some (.integer 80)⟩,
    ⟨⟨some "site".toList, ["db".toList]⟩, "main.PORT".toList, none⟩,
    ⟨⟨none, ["SITE.dB".toList]⟩, "main.Port".toList, some (.text "8080".toList)⟩,
    ⟨⟨none, ["site".toList]⟩, "db.host".toList, some .absent⟩]

theorem raw?_run_portCalls :
    Configuration.section_ (Configuration.section_ (normalizeScope (some "Site".toList))
        (some "db".toList)) (some "main".toList) =
      Configuration.section_ (normalizeScope (some "Site".toList)) (some "db.main".toList) ∧
    (run portCalls default).config.raw? (Configuration.section_ (normalizeScope
      (some "Site".toList)) (some "db.main".toList)) "port".toList = some "8080".toList := by
  have hcalls : ∀ call ∈ portCalls, call.WellNamed := by
    have hnames : ∀ call ∈ portCalls,
        (∀ name ∈ call.view.sections, SectionName name) ∧ OwnKey call.key := by decide +kernel
    exact fun call hcall => ⟨(hnames call hcall).1, (hnames call hcall).2⟩
  have hdb : SectionName "db".toList := by decide +kernel
  have hmain : SectionName "main".toList := by decide +kernel
  have hport : OwnKey "port".toList := by decide +kernel
  have hsections := (raw?_run hcalls hdb hmain hport (some "Site".toList) default).1
  obtain ⟨-, hsection, hvalue⟩ :=
    raw?_run hcalls (hdb.append hmain) hmain hport (some "Site".toList) default
  refine ⟨hsections, hsection.trans (hvalue.trans ?_)⟩
  decide +kernel

end ViewCall

end Keyfile
