import Keyfile.Proofs.Built
import Keyfile.Proofs.Letters
import Keyfile.Session.Environment

/-!
# Views of a configuration

A view lists the keys below its scope by cutting the scope off, and reads a key by joining the scope
to it. The two agree for keys that joining keeps as they are, when the part that is cut off has the
length of the scope and no letter is lowered by what stands beside it.
-/

namespace Keyfile

open Text

/-- The scopes that views have: that of the whole, and those of the sections of views. -/
inductive View : Option Text → Prop
  | root : View none
  | section_ {scope : Option Text} (h : View scope) (name : Option Text) :
      View (Configuration.section_ scope name)

/-- The key of a stored value lies below a scope. -/
def Below : Option Text → Text → Prop
  | none, _ => True
  | some scope, key => ∃ rest, sameName key (scope ++ '.' :: rest) = true

/-- A key that joining a scope to it keeps as it is: it does not begin with a period, and below a
scope it is not blank. -/
def PlainKey : Option Text → Text → Prop
  | none, key => key.head? = some '.' → key = ['.']
  | some _, key => key.head? ≠ some '.' ∧ isAllBlank key = false

/-- A key of which the lower case of a scope can be cut off by its length: what is cut off is
lowered letter by letter, and what is left is lowered alike with the scope and without it. -/
structure Aligned (scope key : Text) : Prop where
  no_sigma : capitalSigma ∉ key
  no_dotted : dottedCapital ∉ key.take (lower scope).length

instance (scope key : Text) : Decidable (Aligned scope key) :=
  decidable_of_iff (capitalSigma ∉ key ∧ dottedCapital ∉ key.take (lower scope).length)
    ⟨fun ⟨hsigma, hdotted⟩ => ⟨hsigma, hdotted⟩, fun h => ⟨h.no_sigma, h.no_dotted⟩⟩

lemma Key.withoutInitialPeriod_eq_self {key : Text} (h : key.head? ≠ some '.') :
    withoutInitialPeriod key = key := by
  unfold withoutInitialPeriod
  split
  · exact absurd rfl h
  · rfl

/-- A name as a view keeps it. -/
structure ScopeName (name : Text) : Prop where
  solid : isAllBlank name = false
  unended : name.getLast? ≠ some '.'

lemma scopeName_of_normalizeScope {scope : Option Text} {name : Text}
    (h : normalizeScope scope = some name) : ScopeName name := by
  unfold normalizeScope at h
  split at h
  · cases h
  · rename_i text
    split at h
    · cases h
    · rename_i hne
      cases h
      constructor
      · obtain ⟨c, rest, hcons⟩ := List.exists_cons_of_ne_nil hne
        have hbelow : c :: rest <+: trim text := hcons ▸ List.rdropWhile_prefix _ _
        obtain ⟨after, htrim⟩ := hbelow
        have hc : isBlank c = false := isBlank_of_trim_eq_cons htrim.symm
        simp [hcons, isAllBlank, hc]
      · intro hlast
        have hended := List.rdropWhile_last_not (· == '.') (trim text) hne
        rw [List.getLast?_eq_some_getLast hne] at hlast
        exact hended (beq_iff_eq.2 (Option.some.inj hlast))

lemma View.scopeName {name : Text} (h : View (some name)) : ScopeName name := by
  generalize hscope : some name = scope at h
  cases h with
  | root => cases hscope
  | @section_ outer _ part =>
    unfold Configuration.section_ at hscope
    split at hscope
    · cases hscope
    · split at hscope
      · cases hscope
      · exact scopeName_of_normalizeScope hscope.symm

namespace ScopeName

variable {name : Text} (h : ScopeName name)
include h

lemma withoutFinalPeriod_eq : Key.withoutFinalPeriod name = name := by
  rw [Key.withoutFinalPeriod, if_neg h.unended]

lemma scopeHead_eq : Store.scopeHead name = lower name ++ ['.'] := by
  have hkept : dropTail (· == '.') name = name := by
    apply List.rdropWhile_eq_self_iff.2
    intro hne hlast
    apply h.unended
    rw [List.getLast?_eq_some_getLast hne]
    simpa using hlast
  rw [Store.scopeHead, hkept]

lemma qualify_eq {key : Text} (hkey : PlainKey (some name) key) :
    Key.qualify (some name) key = name ++ '.' :: key := by
  obtain ⟨hhead, hsolid⟩ := hkey
  have hinitial := Key.withoutInitialPeriod_eq_self hhead
  have hjoin : Key.join (some name) (some key) = some (name ++ '.' :: key) := by
    simp [Key.join, h.withoutFinalPeriod_eq, hinitial, h.solid, hsolid]
  rw [Key.qualify, hjoin]
  split
  · rename_i heq
    simp at heq
  · rename_i heq
    exact (Option.some.inj heq).symm
  · rename_i heq
    cases heq

end ScopeName

lemma qualify_none_of_plain {key : Text} (hkey : PlainKey none key) :
    Key.qualify none key = key := by
  cases key with
  | nil => rfl
  | cons c rest =>
    by_cases hperiod : c = '.'
    · subst hperiod
      rw [hkey rfl]
      rfl
    · simp [Key.qualify, Key.join, Key.withoutInitialPeriod, hperiod]

section Cutting

variable {name : Text} (hname : capitalSigma ∉ name)
include hname

lemma lower_below (rest : Text) :
    lower (name ++ '.' :: rest) = lower name ++ '.' :: lowerAfter ('.' :: name.reverse) rest := by
  have hperiod : lowerChar '.' = ['.'] := rfl
  rw [lower, lowerAfter_append_of_notMem hname, ← lower_of_notMem hname, List.append_nil,
    lowerAfter, if_neg (by decide), hperiod]
  rfl

/-- What is listed of a stored key, with the cut off part, is the stored key ignoring case. -/
lemma exists_of_prefix {key : Text} (hkey : Aligned name key)
    (hbelow : lower name ++ ['.'] <+: lower key) :
    ∃ rest, key.drop (lower name ++ ['.']).length = rest ∧
      lower key = lower name ++ '.' :: lower rest ∧ lower key = lower (name ++ '.' :: rest) := by
  obtain ⟨after, hafter⟩ := hbelow
  have hdotted := hkey.no_dotted
  generalize hlength : (lower name).length = length at hdotted
  have hlowered : lower key = (key.take length).map lowerLetter ++
      (key.drop length).flatMap lowerChar := by
    rw [lower_of_notMem hkey.no_sigma, ← flatMap_lowerChar_of_notMem hdotted,
      ← List.flatMap_append, List.take_append_drop]
  rcases hdrop : key.drop length with _ | ⟨c, rest⟩
  · have hshort := congrArg List.length (hafter.trans hlowered)
    simp only [hdrop, List.length_append, List.length_map, List.length_take, List.length_singleton,
      List.flatMap_nil, List.length_nil, hlength] at hshort
    omega
  have htake : (key.take length).length = length := by
    have hpos : 0 < (key.drop length).length := by rw [hdrop]; exact Nat.zero_lt_succ _
    rw [List.length_drop] at hpos
    rw [List.length_take]
    omega
  obtain ⟨tail, hc⟩ := exists_lowerChar_eq_cons c
  rw [hlowered, hdrop, List.flatMap_cons, hc, List.append_assoc] at hafter
  obtain ⟨hown, hafter⟩ := List.append_inj hafter (by rw [List.length_map, htake, hlength])
  obtain rfl : c = '.' := eq_period_of_lowerLetter (List.cons.inj hafter).1.symm
  have hsigma : capitalSigma ∉ rest := by
    intro hmem
    apply hkey.no_sigma
    apply List.mem_of_mem_drop (i := length)
    rw [hdrop]
    exact List.mem_cons_of_mem _ hmem
  have hboth : capitalSigma ∉ name ++ '.' :: rest := by
    rw [List.mem_append, List.mem_cons]
    rintro (hmem | hmem | hmem)
    · exact hname hmem
    · exact absurd hmem (by decide)
    · exact hsigma hmem
  have hperiod : lowerChar '.' = ['.'] := rfl
  have hkept : lower key = lower name ++ '.' :: lower rest := by
    rw [hlowered, hdrop, List.flatMap_cons, hperiod, hown, lower_of_notMem hsigma]
    rfl
  refine ⟨rest, ?_, hkept, ?_⟩
  · rw [List.length_append, hlength, List.length_singleton, ← List.drop_drop, hdrop]
    rfl
  · rw [hkept, lower_of_notMem hboth, List.flatMap_append, List.flatMap_cons, hperiod,
      lower_of_notMem hname, lower_of_notMem hsigma]
    rfl

end Cutting

namespace Store

variable {store : Store} {name : Text}

/-- The keys of a store that are listed below a scope can be cut. -/
def Cuttable (store : Store) (name : Text) : Prop :=
  ∀ entry ∈ store.items.entries, scopeHead name <+: lower entry.1 → Aligned name entry.1

/-- What a store lists of an entry below a scope. -/
def listed? (name : Text) (entry : Text × Text) : Option (Text × Text) :=
  if (scopeHead name).isPrefixOf (lower entry.1) then
    some (entry.1.drop (scopeHead name).length, entry.2)
  else none

lemma below_eq (h : ScopeName name) :
    store.below (some name) = store.items.entries.filterMap (listed? name) := by
  have hne : name ≠ [] := by
    rintro rfl
    have hsolid := h.solid
    cases hsolid
  obtain ⟨c, rest, rfl⟩ := List.exists_cons_of_ne_nil hne
  rfl

variable (hscope : ScopeName name) (hname : capitalSigma ∉ name)
include hscope hname

lemma of_listed? {entry pair : Text × Text} (hkey : scopeHead name <+: lower entry.1 →
    Aligned name entry.1) (h : listed? name entry = some pair) :
    pair.2 = entry.2 ∧ lower entry.1 = lower name ++ '.' :: lower pair.1 ∧
      lower entry.1 = lower (name ++ '.' :: pair.1) := by
  unfold listed? at h
  split at h
  · rename_i hbelow
    have hkey := hkey (List.isPrefixOf_iff_prefix.1 hbelow)
    rw [hscope.scopeHead_eq, List.isPrefixOf_iff_prefix] at hbelow
    obtain ⟨rest, hrest, hlower, hjoined⟩ := exists_of_prefix hname hkey hbelow
    rw [hscope.scopeHead_eq, hrest] at h
    obtain rfl := Option.some.inj h
    exact ⟨rfl, hlower, hjoined⟩
  · cases h

/-- Exactly the keys below a scope are listed. -/
lemma isSome_listed?_iff {entry : Text × Text} (hkey : scopeHead name <+: lower entry.1 →
    Aligned name entry.1) : (listed? name entry).isSome = true ↔ Below (some name) entry.1 := by
  constructor
  · intro hsome
    obtain ⟨pair, hpair⟩ := Option.isSome_iff_exists.1 hsome
    exact ⟨pair.1, sameName_iff.2 (of_listed? hscope hname hkey hpair).2.2⟩
  · rintro ⟨rest, hsame⟩
    have hlower := (sameName_iff.1 hsame).trans (lower_below hname rest)
    have hbelow : (scopeHead name).isPrefixOf (lower entry.1) = true := by
      rw [hscope.scopeHead_eq, List.isPrefixOf_iff_prefix, hlower]
      exact ⟨lowerAfter ('.' :: name.reverse) rest, by simp⟩
    rw [listed?, if_pos hbelow]
    rfl

end Store

namespace Configuration

variable {config : Configuration}

/-- A view without a scope lists all keys, and reads those that joining keeps. -/
lemma listed_whole (h : Distinct config.store.items.entries) :
    (∀ pair ∈ config.entries none, PlainKey none pair.1 →
        config.raw? none pair.1 = some pair.2) ∧
      Distinct (config.entries none) ∧
      (config.entries none).length =
        {key | key ∈ config.store.items.names ∧ Below none key}.ncard := by
  refine ⟨?_, h, ?_⟩
  · intro pair hpair hplain
    rw [raw?, qualify_none_of_plain hplain]
    exact Table.get?_of_mem h hpair
  · rw [Table.names, ncard_keys_eq_countP h (q := fun _ => true) (by simp [Below])]
    simp [entries, Store.below]

/-- A view with a scope lists the keys below it, and reads those that joining keeps. -/
lemma listed_below (h : Distinct config.store.items.entries) {name : Text}
    (hscope : ScopeName name) (hname : capitalSigma ∉ name)
    (hkeys : config.store.Cuttable name) :
    (∀ pair ∈ config.entries (some name), PlainKey (some name) pair.1 →
        config.raw? (some name) pair.1 = some pair.2) ∧
      Distinct (config.entries (some name)) ∧
      (config.entries (some name)).length =
        {key | key ∈ config.store.items.names ∧ Below (some name) key}.ncard := by
  unfold entries
  rw [Store.below_eq hscope]
  refine ⟨?_, ?_, ?_⟩
  · intro pair hpair hplain
    obtain ⟨entry, hentry, hlisted⟩ := List.mem_filterMap.1 hpair
    obtain ⟨hvalue, -, hjoined⟩ := Store.of_listed? hscope hname (hkeys entry hentry) hlisted
    have hget : config.store.items.get? entry.1 = some entry.2 := Table.get?_of_mem h hentry
    rw [raw?, hscope.qualify_eq hplain, hvalue, ← hget]
    simp only [Store.get?, Table.get?, hjoined]
  · have hpairs : ∀ a ∈ config.store.items.entries, ∀ b ∈ config.store.items.entries,
        lower a.1 ≠ lower b.1 → ∀ first, Store.listed? name a = some first →
          ∀ second, Store.listed? name b = some second → lower first.1 ≠ lower second.1 := by
      intro a ha b hb hne first hfirst second hsecond heq
      apply hne
      rw [(Store.of_listed? hscope hname (hkeys a ha) hfirst).2.1,
        (Store.of_listed? hscope hname (hkeys b hb) hsecond).2.1, heq]
    apply List.pairwise_filterMap.2
    exact List.Pairwise.imp_of_mem (fun {a b} ha hb hne => hpairs a ha b hb hne) h
  · rw [Table.names, List.length_filterMap_eq_countP]
    symm
    apply ncard_keys_eq_countP h
    intro entry hentry
    exact Store.isSome_listed?_iff hscope hname (hkeys entry hentry)

/-- A view reads each key that it lists, lists no key twice, and lists as many keys as are stored
below its scope. -/
theorem Built.listed (h : config.Built) {scope : Option Text} (hview : View scope)
    (hletters : ∀ name, scope = some name →
      capitalSigma ∉ name ∧ config.store.Cuttable name) :
    (∀ pair ∈ config.entries scope, PlainKey scope pair.1 →
        config.raw? scope pair.1 = some pair.2) ∧
      Distinct (config.entries scope) ∧
      (config.entries scope).length =
        {key | key ∈ config.store.items.names ∧ Below scope key}.ncard := by
  cases scope with
  | none => exact listed_whole h.distincts.items
  | some name =>
    obtain ⟨hname, hkeys⟩ := hletters name rfl
    exact listed_below h.distincts.items hview.scopeName hname hkeys

/-- The two letters that are not lowered by themselves stand where nothing is cut off. -/
def webConfiguration : Configuration where
  store := .ofItems ⟨[("Web.Port".toList, "80".toList), ("\u03a3".toList, ['n']),
    ("WEB.\u0130.root".toList, "/srv".toList)]⟩

def webText : Text :=
  Text.join ['\n'] (["Web.Port = 80", "\u03a3 = n", "#section WEB.", "\u0130.root = /srv",
    "#endsection"].map String.toList)

lemma view_section (name : Text) {kept : Text} (h : section_ none (some name) = some kept) :
    View (some kept) := by
  rw [← h]
  exact .section_ .root (some name)

/-- The section is looked at by a spelling of its own. -/
theorem listed_webConfiguration :
    webConfiguration.raw? (some "web".toList) "\u0130.root".toList = some "/srv".toList ∧
      Distinct (webConfiguration.entries (some "web".toList)) ∧
      {key | key ∈ webConfiguration.store.items.names ∧
        Below (some "web".toList) key}.ncard = 2 := by
  have hrun : (load {} (Environment.source {}) webText).run.run.run default =
      (.ok (.ok webConfiguration), default) := by rfl
  have hview : View (some "web".toList) := view_section "web.".toList (by decide +kernel)
  have hletters : ∀ name, some "web".toList = some name →
      capitalSigma ∉ name ∧ webConfiguration.store.Cuttable name := by
    rintro _ ⟨⟩
    unfold Store.Cuttable
    decide +kernel
  obtain ⟨hread, hdistinct, hcount⟩ := (Built.empty.load hrun).listed hview hletters
  have hentries : webConfiguration.entries (some "web".toList) =
      [("Port".toList, "80".toList), ("\u0130.root".toList, "/srv".toList)] := by decide +kernel
  refine ⟨?_, hdistinct, ?_⟩
  · have hmem :
        ("\u0130.root".toList, "/srv".toList) ∈ webConfiguration.entries (some "web".toList) := by
      rw [hentries]
      decide
    exact hread _ hmem ⟨by decide, by decide⟩
  · rw [← hcount, hentries]
    rfl

def dottedConfiguration : Configuration where
  store := .ofItems ⟨[("\u0130.x".toList, ['1'])]⟩

/-- The capital I with dot above becomes two characters in lower case, and the cut takes one
character too many off the key. -/
theorem not_raw_dottedConfiguration :
    dottedConfiguration.Built ∧ View (some [dottedCapital]) ∧
      dottedConfiguration.entries (some [dottedCapital]) = [([], ['1'])] ∧
      dottedConfiguration.raw? (some [dottedCapital]) [] = none := by
  have hrun : (load {} (Environment.source {}) "\u0130.x = 1".toList).run.run.run default =
      (.ok (.ok dottedConfiguration), default) := by rfl
  have hview : View (some [dottedCapital]) :=
    view_section [dottedCapital] (by decide +kernel)
  exact ⟨Built.empty.load hrun, hview, by decide +kernel, by decide +kernel⟩

end Configuration

end Keyfile
