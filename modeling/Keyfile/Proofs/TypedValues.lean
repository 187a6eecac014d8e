import Keyfile.Configuration.Surroundings
import Keyfile.Proofs.ReferenceSpans
import Keyfile.Proofs.WrittenBindings
import Keyfile.Proofs.WrittenIdentifiers

/-!
# Typed values and their stored texts

A value is stored as a text, and a reader of its kind gets it back from there. Readers trim what they
read, and take a member that is a text itself for a text, so the values that are lost are addresses
whose zone has a blank at its end and the members of enumerations of texts.
-/

namespace Keyfile

namespace Enumeration

/-- The names of an enumeration are trimmed, and no two are the same but for their case. -/
structure Distinguishes (enumeration : Enumeration) : Prop where
  trimmed : ∀ member ∈ enumeration.members, Text.trim member.1 = member.1
  distinct : enumeration.members.Pairwise fun first second =>
    Text.lower first.1 ≠ Text.lower second.1

variable {enumeration : Enumeration} {value : MemberValue} {name : Text}

/-- A member of an enumeration that tells its names apart is denoted by its proper name. -/
lemma Distinguishes.denotes_name (h : enumeration.Distinguishes)
    (hname : enumeration.nameOf? value = some name) : enumeration.Denotes name name := by
  obtain ⟨member, hmember, rfl⟩ := Option.map_eq_some_iff.1 hname
  have hmem := List.mem_of_find?_eq_some hmember
  have hvalue : member.2 = value := by simpa using List.find?_some hmember
  have hnodup : (enumeration.members.map fun member => Text.lower member.1).Nodup :=
    List.pairwise_map.2 h.distinct
  have hfound : enumeration.members.find? (fun other =>
      Text.lower other.1 == Text.lower (Text.trim member.1)) = some member := by
    rw [h.trimmed member hmem]
    cases hfind : enumeration.members.find? (fun other =>
        Text.lower other.1 == Text.lower member.1) with
    | none => exact absurd (BEq.refl _) (List.find?_eq_none.1 hfind member hmem)
    | some other =>
      have hsame : Text.lower other.1 = Text.lower member.1 := by
        simpa using List.find?_some hfind
      rw [List.inj_on_of_nodup_map hnodup (List.mem_of_find?_eq_some hfind) hmem hsame]
  exact .named hfound (by rw [hvalue, hname])

end Enumeration

lemma Text.trim_eq_self_of_forall {t : Text} (h : ∀ c ∈ t, isBlank c = false) : trim t = t :=
  trim_eq_self (fun c hc => h c (List.mem_of_mem_head? hc)) fun c hc =>
    h c (List.mem_of_mem_getLast? hc)

lemma Octets.trim_text (octets : Octets) : Text.trim (text octets) = text octets := by
  refine Text.trim_eq_self_of_forall fun c hc => ?_
  obtain ⟨octet, -, hmem⟩ := List.mem_flatMap.1 hc
  exact Text.isBlank_of_hexValue? (Text.hexValue?_of_mem_hexDigits hmem)

lemma Uuid.trim_text (uuid : Uuid) : Text.trim uuid.text = uuid.text := by
  refine Text.trim_eq_self_of_forall fun c hc => ?_
  rcases eq_hyphen_or_mem_of_mem_text hc with rfl | hmem
  · decide
  · exact Text.isBlank_of_hexValue? (hexValue?_of_mem_digits hmem)

namespace Address

lemma isBlank_of_mem_shortText {value : BitVec 32} {c : Char} (h : c ∈ shortText value) :
    Text.isBlank c = false := by
  rcases eq_period_or_isDigit_of_mem_shortText h with rfl | hdigit
  · decide
  · exact Text.isBlank_of_isDigit hdigit

lemma isBlank_of_mem_longText {value : BitVec 128} {c : Char} (h : c ∈ longText value) :
    Text.isBlank c = false := by
  rcases eq_colon_or_hex_of_mem_longText h with rfl | hhex
  · decide
  · exact Text.isBlank_of_hexValue? hhex

/-- What can be trimmed off the text of an address are the blanks that end its zone. -/
lemma trim_zoned {value : BitVec 128} (zone : Text) :
    Text.trim (longText value ++ '%' :: zone) = longText value ++ '%' :: Text.trimEnd zone := by
  have hstart : Text.trimStart (longText value) = longText value :=
    Text.dropWhile_eq_self fun c hc => isBlank_of_mem_longText hc
  rw [Text.trim_append_cons (by decide), hstart]

end Address

namespace Value

/-- The values of the kinds that are read as they are stored. An integer has 64 bits, the zone of an
address stands plainly in its text, and so does the host of a binding. -/
inductive Storable : Value → Prop
  | boolean (value : Bool) : Storable (.boolean value)
  | integer {n : Int} (h : Width.bits64.admits n) : Storable (.integer n)
  | octets (octets : Octets) : Storable (.octets octets)
  | uuid (uuid : Uuid) : Storable (.uuid uuid)
  | address {address : Address} (h : address.IsWritable) : Storable (.address address)
  | binding {binding : Binding} (h : binding.IsPlain) : Storable (.binding binding)
  | member {enumeration : Enumeration} {value : MemberValue} {name : Text}
      (h : enumeration.Distinguishes) (hname : enumeration.nameOf? value = some name) :
      Storable (.member enumeration name)

/-- An address whose zone has a blank at its end. -/
def EndsBlank (value : Value) : Prop :=
  ∃ number zone, value = .address (.long number (some zone)) ∧ Text.trimEnd zone ≠ zone

/-- A member of an enumeration of texts, which is a text itself. -/
def IsTextMember (value : Value) : Prop :=
  ∃ enumeration name, value = .member enumeration name ∧ enumeration.areTexts = true

variable {value : Value}

lemma trim_text_of_not_endsBlank {address : Address} (h : ¬(Value.address address).EndsBlank) :
    Text.trim address.text = address.text := by
  cases address with
  | short number =>
    exact Text.trim_eq_self_of_forall fun _ hc => Address.isBlank_of_mem_shortText hc
  | long number zone =>
    cases zone with
    | none => exact Text.trim_eq_self_of_forall fun _ hc => Address.isBlank_of_mem_longText hc
    | some zone =>
      have hzone : Text.trimEnd zone = zone := by
        by_contra hzone
        exact h ⟨number, zone, rfl, hzone⟩
      rw [Address.text, Address.trim_zoned, hzone]

/-- A value that does not end with a blank and is no text besides is denoted by the text that is
stored for it. -/
lemma Storable.denotes_stored (h : value.Storable) (hblank : ¬value.EndsBlank)
    (htext : ¬value.IsTextMember) (registry : Registry) :
    ∃ kind : Kind, Kind.ofDefault registry value = .ok kind ∧ kind.IsReadable registry ∧
      kind.Denotes registry value.stored value := by
  have hplain : ∀ kind : Kind, (∀ typeName, kind ≠ .custom typeName) →
      kind.IsReadable registry := fun _ hkind typeName heq => absurd heq (hkind typeName)
  cases h with
  | boolean value =>
    cases value
    · exact ⟨_, rfl, hplain _ (by simp), .no (by decide)⟩
    · exact ⟨_, rfl, hplain _ (by simp), .yes (by decide)⟩
  | integer h => exact ⟨_, rfl, hplain _ (by simp), .integer (Width.denotes_ofInt h)⟩
  | octets octets =>
    have hread : Octets.ofText? (Text.trim octets.text) = some octets := by
      rw [octets.trim_text, octets.ofText?_text]
    exact ⟨_, rfl, hplain _ (by simp), .octets hread⟩
  | uuid uuid =>
    have hread : Uuid.ofText? (Text.trim uuid.text) = some uuid := by
      rw [uuid.trim_text, uuid.ofText?_text]
    exact ⟨_, rfl, hplain _ (by simp), .uuid hread⟩
  | @address address h =>
    have hread : Address.ofText? (Text.trim address.text) = some address := by
      rw [trim_text_of_not_endsBlank hblank, Address.ofText?_text h]
    exact ⟨_, rfl, hplain _ (by simp), .address hread⟩
  | binding h => exact ⟨_, rfl, hplain _ (by simp), .binding h.denotes_text⟩
  | @member enumeration member name h hname =>
    have hother : ¬enumeration.areTexts = true := fun htexts =>
      htext ⟨enumeration, name, rfl, htexts⟩
    refine ⟨.enumeration enumeration, ?_, hplain _ (by simp), .member (h.denotes_name hname)⟩
    rw [Kind.ofDefault, if_neg hother]

/-- A value that does not end with a blank and is no text besides is read back with every default of
its kind. -/
lemma Storable.parseAs_stored (h : value.Storable) (hblank : ¬value.EndsBlank)
    (htext : ¬value.IsTextMember) (registry : Registry) {default : Value}
    (hkind : Kind.ofDefault registry default = Kind.ofDefault registry value) :
    parseAs registry (some value.stored) default = .ok value := by
  obtain ⟨kind, hvalue, hreadable, hdenotes⟩ := h.denotes_stored hblank htext registry
  rw [parseAs, hkind, hvalue]
  exact (Kind.answers_parse hreadable value.stored default).value value hdenotes

/-- An address with a zone comes back without the blanks that end the zone, and not at all when
the zone has nothing else. -/
lemma parseAs_zoned (number : BitVec 128) {zone : Text} (hclosed : '%' ∉ zone) (hopen : '/' ∉ zone)
    (registry : Registry) (default : Address) :
    parseAs registry (some (Value.address (.long number (some zone))).stored) (.address default) =
      .ok (.address (if Text.trimEnd zone = [] then default
        else .long number (some (Text.trimEnd zone)))) := by
  have hsub := (Text.prefix_trimEnd zone).subset
  have hread : Address.ofText? (Text.trim (Address.longText number ++ '%' :: zone)) =
      if Text.trimEnd zone = [] then none else some (.long number (some (Text.trimEnd zone))) := by
    rw [Address.trim_zoned, Address.ofText?_zoned number (fun h => hclosed (hsub h))
      fun h => hopen (hsub h)]
  change Except.ok (((Address.ofText? (Text.trim (Address.longText number ++ '%' :: zone))).map
    Value.address).getD (.address default)) = _
  rw [hread]
  split <;> rfl

end Value

namespace Surrounded

variable (surrounded : Surrounded) (scope : Option Text) (key : Text) {value : Value}

/-- What is asked for right after a value was stored is the value's text, if that has no
references. -/
lemma get?_store (hvalue : value ≠ .absent) (h : hasReferences value.stored = false) :
    (surrounded.store scope key value).get? scope key = pure (some value.stored) := by
  have hstore : surrounded.store scope key value =
      { surrounded with config := surrounded.config.set scope key value.stored } := by
    rw [store]
    exact hvalue
  have hraw : (surrounded.config.set scope key value.stored).raw? scope key =
      some value.stored := by
    rw [Configuration.raw?, Configuration.set, Store.get?, Store.set, Table.get?_insert, if_pos rfl]
  rw [hstore, get?, Configuration.get?, hraw]
  dsimp only
  rw [Configuration.expand, expand_of_not_hasReferences _ h]
  rfl

end Surrounded

namespace Value

variable {value : Value}

lemma Storable.ne_absent (h : value.Storable) : value ≠ .absent := by
  rintro rfl
  cases h

/-- A member that is a text comes back as a text. -/
lemma IsTextMember.parseAs_stored (h : value.IsTextMember) (registry : Registry) :
    parseAs registry (some value.stored) value = .ok (.text value.stored) := by
  obtain ⟨enumeration, name, rfl, htexts⟩ := h
  rw [parseAs, Kind.ofDefault, if_pos htexts]
  rfl

lemma EndsBlank.percent_mem (h : value.EndsBlank) : '%' ∈ value.stored := by
  obtain ⟨number, zone, rfl, -⟩ := h
  exact List.mem_append_right _ List.mem_cons_self

/-- A value is read back from the text that is stored for it, with every default of its kind,
except for an address with a zone that ends with a blank and a member that is a text. After it was
stored in a configuration, it is what the configuration answers, unless its text has references. -/
theorem Storable.read_stored (h : value.Storable) :
    ((∀ registry default,
        Kind.ofDefault registry default = Kind.ofDefault registry value →
          parseAs registry (some value.stored) default = .ok value) ↔
      ¬value.EndsBlank ∧ ¬value.IsTextMember) ∧
    (¬value.IsTextMember → '%' ∉ value.stored → ¬"$(".toList <:+: value.stored →
      ∀ (surrounded : Surrounded) (scope : Option Text) (key : Text) (default : Value)
        (world : World),
        Kind.ofDefault world.registry default = Kind.ofDefault world.registry value →
        ((surrounded.store scope key value).getLike scope key default).run.run world =
          (.ok value, world)) := by
  refine ⟨⟨fun hread => ⟨?_, fun htext => ?_⟩, ?_⟩, ?_⟩
  · rintro ⟨number, zone, rfl, hzone⟩
    cases h with
    | address h =>
      obtain ⟨-, hclosed, hopen⟩ := h
      have hdefault := hread {} (.address (.long 0 none)) rfl
      rw [parseAs_zoned number hclosed hopen] at hdefault
      split at hdefault
      · cases hdefault
      · injection hdefault with hsame
        injection hsame with hsame
        injection hsame with _ hsame
        exact hzone (Option.some.inj hsame)
  · have hsame := (htext.parseAs_stored {}).symm.trans (hread {} value rfl)
    obtain ⟨enumeration, name, rfl, -⟩ := htext
    cases hsame
  · rintro ⟨hblank, htext⟩ registry default hkind
    exact h.parseAs_stored hblank htext registry hkind
  · intro htext hpercent hdollar surrounded scope key default world hkind
    have hget := surrounded.get?_store scope key h.ne_absent
      (hasReferences_eq_false hpercent hdollar)
    have hparse := h.parseAs_stored (fun hblank => hpercent hblank.percent_mem) htext
      world.registry hkind
    rw [Surrounded.getLike, hget, pure_bind]
    change (Session.ofExcept .value (parseAs world.registry (some value.stored) default)).run.run
      world = _
    rw [hparse]
    rfl

/-- A binding to all addresses is read back, also as what a configuration answers. -/
theorem read_openBinding :
    parseAs {} (some "[::]:80".toList) (.binding ⟨"localhost".toList, 1⟩) =
        .ok (.binding ⟨"::".toList, 80⟩) ∧
      (((default : Surrounded).store none "listen".toList (.binding ⟨"::".toList, 80⟩)).getLike none
        "listen".toList (.binding ⟨"localhost".toList, 1⟩)).run.run default =
          (.ok (.binding ⟨"::".toList, 80⟩), default) := by
  have hplain : (⟨"::".toList, 80⟩ : Binding).IsPlain := by
    refine ⟨by decide, by decide, ?_, by decide⟩
    rintro c ⟨⟩
    decide
  have hstored : (Value.binding ⟨"::".toList, 80⟩).stored = "[::]:80".toList := by decide
  obtain ⟨hread, hanswer⟩ := Storable.read_stored (.binding hplain)
  refine ⟨hstored ▸ hread.2 ⟨?_, ?_⟩ {} _ rfl, hanswer ?_ ?_ ?_ default none _ _ default rfl⟩
  · rintro ⟨number, zone, ⟨⟩, -⟩
  · rintro ⟨enumeration, name, ⟨⟩, -⟩
  · rintro ⟨enumeration, name, ⟨⟩, -⟩
  · rw [hstored]
    decide
  · rw [hstored]
    decide

/-- A zone that ends with a blank is read back without it. -/
theorem parseAs_zoneWithBlank :
    parseAs {} (some (Value.address (.long 1 (some "eth0 ".toList))).stored)
        (.address (.long 1 none)) =
      .ok (.address (.long 1 (some "eth0".toList))) := by
  decide

end Value

end Keyfile
