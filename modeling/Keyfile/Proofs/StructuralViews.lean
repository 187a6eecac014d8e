import Keyfile.Proofs.Letters
import Keyfile.Proofs.StoreHistory
import Mathlib.Order.Bounds.Defs

/-!
# Arrays, sections and dictionaries of a store

Three views read the same keys in three ways: an array writes its positions out and looks them up, a
count of sections compares the beginnings of all keys, and a dictionary takes every key apart as it
is spelled. A bracket keeps the lower case of a base apart from what stands behind it, so the views
agree. As no two positions have the same key, a store of finitely many keys has a gap in every
array.
-/

namespace Keyfile

namespace Key

/-- The key of a name below a base. -/
def named (base name : Text) : Text :=
  base ++ '[' :: (name ++ [']'])

/-- The last opening bracket of the key stands between the base and the name, and a closing one
stands at its end. -/
structure Divides (key base name : Text) : Prop where
  key_eq : key = named base name
  last : '[' ∉ name

lemma indexed_eq_named (base : Text) (index : Nat) :
    indexed base index = named base (Text.ofNat index) :=
  indexed_eq base index

lemma splitIndexed_eq_some_iff {key base name : Text} :
    splitIndexed key = some (base, name) ↔ base ≠ [] ∧ Divides key base name := by
  unfold splitIndexed
  constructor
  · intro h
    split at h
    · rename_i hlast
      split at h
      · cases h
      · rename_i parent rest hne hcut
        obtain ⟨hkey, hbracket⟩ := Text.cutLastAt_eq_some_iff.1 hcut
        cases h
        rcases List.eq_nil_or_concat rest with rfl | ⟨name, last, rfl⟩
        · simp [hkey] at hlast
        · rw [hkey, List.concat_eq_append, ← List.cons_append, ← List.append_assoc,
            List.getLast?_concat] at hlast
          obtain rfl := Option.some.inj hlast
          rw [List.concat_eq_append] at hkey hbracket ⊢
          rw [List.dropLast_concat]
          refine ⟨hne, hkey, ?_⟩
          exact fun hmem => hbracket (List.mem_append_left _ hmem)
      · cases h
    · cases h
  · rintro ⟨hbase, rfl, hname⟩
    have hbracket : '[' ∉ name ++ [']'] := by simp [hname]
    have hlast : (named base name).getLast? = some ']' := by
      rw [named, ← List.cons_append, ← List.append_assoc, List.getLast?_concat]
    rw [if_pos hlast, named, Text.cutLastAt_append_cons hbracket]
    cases base with
    | nil => exact absurd rfl hbase
    | cons c base => simp

/-- A key with a name is lowered in two parts, so its base counts in its lower case alone. -/
lemma lower_named_congr {base other : Text} (h : Text.lower base = Text.lower other)
    (name : Text) : Text.lower (named base name) = Text.lower (named other name) := by
  rw [named, named, lower_append_bracket, lower_append_bracket, h]

/-- A key that is that of a position but for its case is written with the position's index. -/
lemma exists_divides_of_lower {key base : Text} {index : Nat}
    (h : Text.lower key = Text.lower (indexed base index)) :
    ∃ parent, Divides key parent (Text.ofNat index) ∧ Text.lower parent = Text.lower base := by
  have hlower : Text.lower key = Text.lower base ++ '[' :: (Text.ofNat index ++ [']']) := by
    rw [h, lower_indexed, indexed_eq]
  have hbracket : '[' ∈ key := by
    have hmem : '[' ∈ Text.lowerAfter [] key := by
      change '[' ∈ Text.lower key
      rw [hlower]
      exact List.mem_append_right _ List.mem_cons_self
    exact Text.mem_of_mem_lowerAfter (by decide) hmem
  cases hcut : Text.cutLastAt '[' key with
  | none => exact absurd hbracket (Text.notMem_of_cutLastAt hcut)
  | some parts =>
    obtain ⟨parent, rest⟩ := parts
    obtain ⟨rfl, hrest⟩ := Text.cutLastAt_eq_some_iff.1 hcut
    have hbehind : '[' ∉ Text.lowerAfter ['['] rest :=
      fun hmem => hrest (Text.mem_of_mem_lowerAfter (by decide) hmem)
    -- both ways of writing the lower case are cut at their last bracket
    rw [lower_append_bracket] at hlower
    have hparts := congrArg (Text.cutLastAt '[') hlower
    rw [Text.cutLastAt_append_cons hbehind,
      Text.cutLastAt_append_cons (bracket_notMem_index index)] at hparts
    obtain ⟨hparent, hindex⟩ := Prod.mk.inj (Option.some.inj hparts)
    have hsigns : ∀ c ∈ Text.lowerAfter ['['] rest, Text.IsSign c := by
      rw [hindex]
      exact fun c hc => isSign_of_mem_index hc
    have hwritten : rest = Text.ofNat index ++ [']'] := by
      rw [← Text.eq_lowerAfter_of_signs hsigns, hindex]
    refine ⟨parent, ⟨by rw [hwritten]; rfl, ?_⟩, hparent⟩
    exact fun hmem => bracket_notMem_index index (List.mem_append_left _ hmem)

/-- The beginning of the keys in a numbered section. -/
def sectionHead (base : Text) (index : Nat) : Text :=
  indexed base index ++ ['.']

lemma lower_sectionHead (base : Text) (index : Nat) :
    Text.lower (sectionHead base index) =
      Text.lower base ++ '[' :: (Text.ofNat index ++ [']', '.']) := by
  have hsteady : ∀ c ∈ Text.ofNat index ++ [']', '.'], Text.Steady c := by
    intro c hc
    rw [List.append_cons, List.mem_append] at hc
    rcases hc with hc | hc
    · exact (isSign_of_mem_index hc).steady
    · obtain rfl := List.mem_singleton.1 hc
      decide
  have heq : sectionHead base index = base ++ '[' :: (Text.ofNat index ++ [']', '.']) := by
    simp [sectionHead, indexed_eq]
  rw [heq, lower_append_bracket_of_steady hsteady]

/-- A key lies in one numbered section of a base at most. -/
lemma sectionHead_injective {base key : Text} {i j : Nat}
    (hi : Text.lower (sectionHead base i) <+: key)
    (hj : Text.lower (sectionHead base j) <+: key) : i = j := by
  obtain ⟨after, hi⟩ := hi
  obtain ⟨after', hj⟩ := hj
  rw [lower_sectionHead] at hi hj
  have hheads := hi.trans hj.symm
  simp only [List.append_assoc, List.cons_append, List.append_cancel_left_eq, List.cons.injEq,
    true_and] at hheads
  have hdigits : ∀ (n : Nat) (rest : Text),
      (Text.ofNat n ++ ']' :: rest).takeWhile (· != ']') = Text.ofNat n := by
    intro n rest
    have hne : ∀ c ∈ Text.ofNat n, (c != ']') = true := by
      intro c hc
      rw [bne_iff_ne]
      rintro rfl
      exact absurd (Text.isDigit_of_mem_ofNat hc) (by decide)
    rw [List.takeWhile_append_of_pos hne]
    simp
  apply Text.ofNat_injective
  rw [← hdigits i, hheads, hdigits j]

end Key

namespace Record

/-- Pairs of which no two have the same name are their own record. -/
lemma ofPairs_eq_self {pairs : List (Text × Text)} (h : (pairs.map (·.1)).Nodup) :
    ofPairs pairs = pairs := by
  have hfold : ∀ record : Record, ((record ++ pairs).map (·.1)).Nodup →
      pairs.foldl (fun record pair => record.put pair.1 pair.2) record = record ++ pairs := by
    induction pairs with
    | nil => simp
    | cons pair rest ih =>
      intro record hnodup
      have hnew : ∀ other ∈ record, (other.1 == pair.1) = false := by
        intro other hother
        rw [List.map_append, List.nodup_append] at hnodup
        have hne := hnodup.2.2 other.1 (List.mem_map_of_mem hother) pair.1 (by simp)
        simpa using hne
      have hsplit : record ++ pair :: rest = (record ++ [pair]) ++ rest := by simp
      rw [List.foldl_cons, put, place_eq_append hnew, hsplit]
      rw [hsplit] at hnodup
      exact ih (List.Nodup.of_cons (by simpa using h)) _ hnodup
  exact hfold [] h

lemma get?_of_mem {record : Record} (h : (record.map (·.1)).Nodup) {name value : Text}
    (hmem : (name, value) ∈ record) : record.get? name = some value := by
  induction record with
  | nil => cases hmem
  | cons first rest ih =>
    rw [List.map_cons, List.nodup_cons] at h
    rcases List.mem_cons.1 hmem with rfl | hmem
    · simp [get?]
    · have hne : (first.1 == name) = false := by
        rw [beq_eq_false_iff_ne]
        rintro rfl
        exact h.1 (List.mem_map.2 ⟨_, hmem, rfl⟩)
      have hrest := ih h.2 hmem
      rwa [get?, List.find?_cons, hne]

end Record

lemma Table.exists_mem_of_get? {table : Table} {name value : Text}
    (h : table.get? name = some value) :
    ∃ entry ∈ table.entries, Text.lower entry.1 = Text.lower name ∧ entry.2 = value := by
  obtain ⟨entry, hfind, hvalue⟩ := Option.map_eq_some_iff.1 h
  exact ⟨entry, List.mem_of_find?_eq_some hfind, by simpa using List.find?_some hfind, hvalue⟩

/-- When no element of a list is hit by two numbers, a number that is not above the list's length
hits none. -/
lemma exists_gap {α : Type} (list : List α) (hits : Nat → α → Prop)
    (hinjective : ∀ i j a, hits i a → hits j a → i = j) :
    ∃ n ≤ list.length, ¬∃ a ∈ list, hits n a := by
  by_contra hall
  have hall : ∀ n : Fin (list.length + 1), ∃ a ∈ list, hits n a := by
    intro n
    by_contra hnone
    exact hall ⟨n, Nat.le_of_lt_succ n.isLt, hnone⟩
  choose hit hmem hhits using hall
  have hnodup : (List.ofFn hit).Nodup := by
    rw [List.nodup_ofFn]
    intro i j heq
    exact Fin.ext (hinjective i j (hit i) (hhits i) (heq ▸ hhits j))
  have hsubset : List.ofFn hit ⊆ list := by
    intro a ha
    obtain ⟨n, rfl⟩ := List.mem_ofFn.1 ha
    exact hmem n
  have hlength := hnodup.length_le_of_subset hsubset
  rw [List.length_ofFn] at hlength
  omega

namespace Store

variable {store : Store} {base : Text}

/-- The stores that can be reached by operations; a copy of a store, and a store that takes over
the contents of another, begin with its items alone. -/
inductive Reachable : Store → Prop
  | empty : Reachable {}
  | operation {store : Store} (h : Reachable store) (operation : Operation) :
      Reachable (operation.apply store)
  | copy {store : Store} (h : Reachable store) : Reachable (.ofItems store.items)

/-- Each operation keeps the keys of a store apart, and so do all. -/
theorem Reachable.distinct (h : store.Reachable) : Distinct store.items.entries := by
  induction h with
  | empty => exact List.Pairwise.nil
  | operation _ operation ih =>
    cases operation with
    | set key value => exact Table.distinct_insert ih key value
    | remove key => exact Table.distinct_erase ih key
    | append base value => exact ih
    | merge => exact distinct_merge ih
  | copy _ ih => exact ih

lemma reachable_run (operations : List Operation) : (run operations).Reachable := by
  induction operations using List.reverseRecOn with
  | nil => exact .empty
  | append_singleton operations operation ih =>
    rw [run_append]
    exact ih.operation operation

/-- The positions of an array that hold a value. -/
def Filled (store : Store) (base : Text) (index : Nat) : Prop :=
  store.get? (Key.indexed base index) ≠ none

lemma exists_unfilled (store : Store) (base : Text) :
    ∃ n ≤ store.size, ¬store.Filled base n := by
  obtain ⟨n, hle, hnone⟩ := exists_gap store.items.entries
    (fun i entry => Text.lower entry.1 = Text.lower (Key.indexed base i))
    fun i j entry hi hj => (Key.lower_indexed_injective (hi.symm.trans hj)).2
  refine ⟨n, hle, fun hfilled => hnone ?_⟩
  obtain ⟨value, hvalue⟩ := Option.ne_none_iff_exists'.1 hfilled
  obtain ⟨entry, hentry, hkey, -⟩ := Table.exists_mem_of_get? hvalue
  exact ⟨entry, hentry, hkey⟩

/-- The loop over the positions ends at the first gap, if that lies within the bound. -/
lemma arrayFrom_eq {index count bound : Nat} (hbound : count ≤ bound)
    (hfilled : ∀ i < count, store.Filled base (index + i))
    (hgap : ¬store.Filled base (index + count)) :
    (store.arrayFrom base index bound).map some =
      (List.range count).map fun i => store.get? (Key.indexed base (index + i)) := by
  induction count generalizing index bound with
  | zero =>
    have hnone : store.get? (Key.indexed base index) = none := by simpa [Filled] using hgap
    cases bound with
    | zero => rfl
    | succ bound => simp [arrayFrom, hnone]
  | succ count ih =>
    obtain ⟨bound, rfl⟩ := Nat.exists_eq_add_of_le' (Nat.lt_of_lt_of_le (Nat.zero_lt_succ _) hbound)
    obtain ⟨value, hvalue⟩ := Option.ne_none_iff_exists'.1 (hfilled 0 (Nat.zero_lt_succ _))
    have hnext : ∀ i, index + 1 + i = index + (i + 1) := fun i => by omega
    have hrest := @ih (index + 1) bound (by omega)
      (fun i hi => hnext i ▸ hfilled (i + 1) (by omega)) (hnext count ▸ hgap)
    rw [List.range_succ_eq_map, List.map_cons, hvalue, List.map_map]
    rw [Nat.add_zero] at hvalue
    rw [arrayFrom, hvalue, List.map_cons, hrest]
    simp only [hnext, Function.comp_def, Nat.succ_eq_add_one]

/-- The array is what is read at its positions, up to the first at which there is nothing. -/
lemma array_spec (store : Store) (base : Text) :
    ∃ n ≤ store.size, IsLeast {i | store.get? (Key.indexed base i) = none} n ∧
      (store.array base).map some =
        (List.range n).map fun i => store.get? (Key.indexed base i) := by
  obtain ⟨m, hle, hunfilled⟩ := store.exists_unfilled base
  have hgap : ∃ n, store.get? (Key.indexed base n) = none := ⟨m, not_not.1 hunfilled⟩
  have hfound := Nat.find_min' hgap (not_not.1 hunfilled)
  refine ⟨Nat.find hgap, hfound.trans hle, ⟨Nat.find_spec hgap, fun i hi => Nat.find_min' hgap hi⟩,
    ?_⟩
  have hfilled : ∀ i < Nat.find hgap, store.Filled base (0 + i) := by
    intro i hi
    rw [Nat.zero_add]
    exact Nat.find_min hgap hi
  have hend : ¬store.Filled base (0 + Nat.find hgap) := by
    rw [Nat.zero_add]
    exact not_not.2 (Nat.find_spec hgap)
  have heq := store.arrayFrom_eq (hfound.trans hle) hfilled hend
  simp only [Nat.zero_add] at heq
  exact heq

lemma hasSection_iff {index : Nat} : store.hasSection base index = true ↔
    ∃ key ∈ store.keys, Text.lower (Key.sectionHead base index) <+: key := by
  simp [hasSection, Key.sectionHead]

lemma exists_sectionless (store : Store) (base : Text) :
    ∃ n ≤ store.size, store.hasSection base n = false := by
  obtain ⟨n, hle, hnone⟩ := exists_gap store.keys
    (fun i key => Text.lower (Key.sectionHead base i) <+: key)
    fun i j key => Key.sectionHead_injective
  refine ⟨n, ?_, by rwa [← hasSection_iff, Bool.not_eq_true] at hnone⟩
  simpa [keys, Table.keys, size, Table.size] using hle

/-- The loop over the sections ends at the first that has no key, if that lies within the bound. -/
lemma sectionCountFrom_eq {index count bound : Nat} (hbound : count ≤ bound)
    (hfull : ∀ i < count, store.hasSection base (index + i) = true)
    (hgap : store.hasSection base (index + count) = false) :
    store.sectionCountFrom base index bound = count := by
  induction count generalizing index bound with
  | zero =>
    rw [Nat.add_zero] at hgap
    cases bound with
    | zero => rfl
    | succ bound => simp [sectionCountFrom, hgap]
  | succ count ih =>
    obtain ⟨bound, rfl⟩ := Nat.exists_eq_add_of_le' (Nat.lt_of_lt_of_le (Nat.zero_lt_succ _) hbound)
    have hfirst : store.hasSection base index = true := hfull 0 (Nat.zero_lt_succ _)
    have hnext : ∀ i, index + 1 + i = index + (i + 1) := fun i => by omega
    rw [sectionCountFrom, if_pos hfirst]
    exact congrArg (· + 1) (ih (by omega) (fun i hi => hnext i ▸ hfull (i + 1) (by omega))
      (hnext count ▸ hgap))

/-- The count of sections is the first index that begins no key. -/
lemma sectionCount_spec (store : Store) (base : Text) :
    IsLeast {n | ∀ key ∈ store.items.names,
      ¬Text.lower (Key.indexed base n ++ ['.']) <+: Text.lower key} (store.sectionCount base) := by
  have hset : ∀ n, (∀ key ∈ store.items.names,
      ¬Text.lower (Key.indexed base n ++ ['.']) <+: Text.lower key) ↔
        store.hasSection base n = false := by
    intro n
    rw [← Bool.not_eq_true, hasSection_iff]
    simp [keys, Table.keys, Table.names, Key.sectionHead]
  obtain ⟨m, hle, hsectionless⟩ := store.exists_sectionless base
  have hgap : ∃ n, store.hasSection base n = false := ⟨m, hsectionless⟩
  have hfound := (Nat.find_min' hgap hsectionless).trans hle
  have hcount : store.sectionCount base = Nat.find hgap := by
    apply sectionCountFrom_eq hfound
    · intro i hi
      rw [Nat.zero_add, ← Bool.not_eq_false]
      exact Nat.find_min hgap hi
    · rw [Nat.zero_add]
      exact Nat.find_spec hgap
  simp only [hset, hcount]
  exact ⟨Nat.find_spec hgap, fun i hi => Nat.find_min' hgap hi⟩

/-- The name and the value of an entry whose key names it below a base. -/
def member? (base : Text) (entry : Text × Text) : Option (Text × Text) :=
  match Key.splitIndexed entry.1 with
  | some (parent, name) => if sameName parent base then some (name, entry.2) else none
  | none => none

lemma member?_eq_some_iff (hbase : base ≠ []) {entry pair : Text × Text} :
    member? base entry = some pair ↔
      (∃ parent, Key.Divides entry.1 parent pair.1 ∧ Text.lower parent = Text.lower base) ∧
        entry.2 = pair.2 := by
  obtain ⟨name, value⟩ := pair
  unfold member?
  constructor
  · intro h
    split at h
    · rename_i parent name' hsplit
      split at h
      · rename_i hsame
        cases h
        exact ⟨⟨parent, (Key.splitIndexed_eq_some_iff.1 hsplit).2, sameName_iff.1 hsame⟩, rfl⟩
      · cases h
    · cases h
  · rintro ⟨⟨parent, hdivides, hparent⟩, hvalue⟩
    have hne : parent ≠ [] := by
      rintro rfl
      exact hbase (Text.lower_eq_nil_iff.1 hparent.symm)
    rw [Key.splitIndexed_eq_some_iff.2 ⟨hne, hdivides⟩]
    simp [hparent, hvalue]

/-- An entry that a base has as a member is stored under the member's name. -/
lemma lower_of_member? (hbase : base ≠ []) {entry pair : Text × Text}
    (h : member? base entry = some pair) :
    Text.lower entry.1 = Text.lower (Key.named base pair.1) := by
  obtain ⟨⟨parent, hdivides, hparent⟩, -⟩ := (member?_eq_some_iff hbase).1 h
  rw [hdivides.key_eq, Key.lower_named_congr hparent]

lemma nodup_members (hbase : base ≠ []) {entries : List (Text × Text)} (h : Distinct entries) :
    ((entries.filterMap (member? base)).map (·.1)).Nodup := by
  rw [List.Nodup, List.pairwise_map, List.pairwise_filterMap]
  refine List.Pairwise.imp ?_ h
  intro a b hne first hfirst second hsecond heq
  apply hne
  rw [lower_of_member? hbase hfirst, lower_of_member? hbase hsecond, heq]

lemma dictionary_eq (hbase : base ≠ []) (h : Distinct store.items.entries) :
    store.dictionary base = store.items.entries.filterMap (member? base) :=
  Record.ofPairs_eq_self (nodup_members hbase h)

/-- The dictionary has one entry for each key that names a member, with what is read there. -/
lemma mem_dictionary_iff (hbase : base ≠ []) (h : Distinct store.items.entries)
    {name value : Text} : (name, value) ∈ store.dictionary base ↔
      (∃ key ∈ store.items.names, ∃ parent, Key.Divides key parent name ∧
        Text.lower parent = Text.lower base) ∧
          store.get? (Key.named base name) = some value := by
  rw [dictionary_eq hbase h, List.mem_filterMap]
  have hread : ∀ entry ∈ store.items.entries, ∀ parent, Key.Divides entry.1 parent name →
      Text.lower parent = Text.lower base →
        store.get? (Key.named base name) = some entry.2 := by
    intro entry hentry parent hdivides hparent
    rw [← Table.get?_of_mem h hentry, hdivides.key_eq]
    exact store.get?_congr (Key.lower_named_congr hparent.symm name)
  constructor
  · rintro ⟨entry, hentry, hmember⟩
    obtain ⟨⟨parent, hdivides, hparent⟩, hvalue⟩ := (member?_eq_some_iff hbase).1 hmember
    refine ⟨⟨entry.1, List.mem_map_of_mem hentry, parent, hdivides, hparent⟩, ?_⟩
    rw [hread entry hentry parent hdivides hparent, hvalue]
  · rintro ⟨⟨key, hkey, parent, hdivides, hparent⟩, hvalue⟩
    obtain ⟨entry, hentry, rfl⟩ := List.mem_map.1 hkey
    rw [hread entry hentry parent hdivides hparent] at hvalue
    exact ⟨entry, hentry,
      (member?_eq_some_iff hbase).2 ⟨⟨parent, hdivides, hparent⟩, Option.some.inj hvalue⟩⟩

lemma length_dictionary (hbase : base ≠ []) (h : Distinct store.items.entries) :
    (store.dictionary base).length =
      {key | key ∈ store.items.names ∧ ∃ parent name, Key.Divides key parent name ∧
        Text.lower parent = Text.lower base}.ncard := by
  rw [dictionary_eq hbase h, List.length_filterMap_eq_countP, Table.names]
  symm
  apply ncard_keys_eq_countP h
  intro entry _
  simp only [Option.isSome_iff_exists, member?_eq_some_iff hbase]
  constructor
  · rintro ⟨pair, ⟨parent, hmember⟩, -⟩
    exact ⟨parent, pair.1, hmember⟩
  · rintro ⟨parent, name, hmember⟩
    exact ⟨(name, entry.2), ⟨parent, hmember⟩, rfl⟩

/-- What is read at a position is in the dictionary under the position's index. -/
lemma get?_dictionary_index (hbase : base ≠ []) (h : Distinct store.items.entries) {index : Nat}
    {value : Text} (hvalue : store.get? (Key.indexed base index) = some value) :
    Record.get? (store.dictionary base) (Text.ofNat index) = some value := by
  have hnodup : ((store.dictionary base).map (·.1)).Nodup := by
    rw [dictionary_eq hbase h]
    exact nodup_members hbase h
  apply Record.get?_of_mem hnodup
  rw [mem_dictionary_iff hbase h]
  obtain ⟨entry, hentry, hkey, -⟩ := Table.exists_mem_of_get? hvalue
  refine ⟨⟨entry.1, List.mem_map_of_mem hentry, Key.exists_divides_of_lower hkey⟩, ?_⟩
  rwa [← Key.indexed_eq_named]

/-- An array, the sections and the dictionary of a base read the indexed keys: the array up to the
first position without a value, the count of sections up to the first index that begins no key, and
the dictionary once at each key that names a member. At the positions of the array the two agree. -/
theorem Reachable.views (h : store.Reachable) (hbase : base ≠ []) :
    (∃ n ≤ store.size, IsLeast {i | store.get? (Key.indexed base i) = none} n ∧
      (store.array base).map some =
        ((List.range n).map fun i => store.get? (Key.indexed base i)) ∧
      ∀ i < n, Record.get? (store.dictionary base) (Text.ofNat i) = (store.array base)[i]?) ∧
    IsLeast {n | ∀ key ∈ store.items.names,
      ¬Text.lower (Key.indexed base n ++ ['.']) <+: Text.lower key} (store.sectionCount base) ∧
    (∀ name value, (name, value) ∈ store.dictionary base ↔
      (∃ key ∈ store.items.names, ∃ parent, Key.Divides key parent name ∧
        Text.lower parent = Text.lower base) ∧
          store.get? (Key.named base name) = some value) ∧
    ((store.dictionary base).map (·.1)).Nodup ∧
    (store.dictionary base).length =
      {key | key ∈ store.items.names ∧ ∃ parent name, Key.Divides key parent name ∧
        Text.lower parent = Text.lower base}.ncard := by
  have hdistinct := h.distinct
  obtain ⟨n, hle, hleast, harray⟩ := store.array_spec base
  refine ⟨⟨n, hle, hleast, harray, fun i hi => ?_⟩, store.sectionCount_spec base,
    fun _ _ => mem_dictionary_iff hbase hdistinct, ?_, length_dictionary hbase hdistinct⟩
  · have hat := congrArg (·[i]?) harray
    simp only [List.getElem?_map, List.getElem?_range hi, Option.map_some] at hat
    cases hvalue : store.get? (Key.indexed base i) with
    | none => exact absurd (hleast.2 hvalue) (Nat.not_le.2 hi)
    | some value =>
      rw [get?_dictionary_index hbase hdistinct hvalue]
      rw [hvalue] at hat
      obtain ⟨found, hfound, hsome⟩ := Option.map_eq_some_iff.1 hat
      rw [hfound, Option.some.inj hsome]
  · rw [dictionary_eq hbase hdistinct]
    exact nodup_members hbase hdistinct

/-- A base with a bracket and a period, its keys in different cases, and a value that waits. -/
def plotOperations : List Operation :=
  [.set "P.q[x][0]".toList ['a'], .set "p.Q[X][1]".toList ['b'], .set "p.q[x][3]".toList ['d'],
    .set "P.Q[X][0].size".toList ['2'], .append "p.q[x]".toList ['c'],
    .set "p.q[X][\u03a3]".toList ['s'], .remove "P.Q[x][2]".toList, .merge]

theorem views_plot :
    (run plotOperations).Reachable ∧
      IsLeast {n | ∀ key ∈ (run plotOperations).items.names,
        ¬Text.lower (Key.indexed "p.q[X]".toList n ++ ['.']) <+: Text.lower key} 1 ∧
      {key | key ∈ (run plotOperations).items.names ∧ ∃ parent name, Key.Divides key parent name ∧
        Text.lower parent = Text.lower "p.q[X]".toList}.ncard = 4 ∧
      ∀ i < 2, Record.get? ((run plotOperations).dictionary "p.q[X]".toList) (Text.ofNat i) =
        [['a'], ['b']][i]? := by
  have hreachable := reachable_run plotOperations
  obtain ⟨⟨n, -, -, harray, hagree⟩, hsections, -, -, hcount⟩ :=
    hreachable.views (by decide : "p.q[X]".toList ≠ [])
  have hlists : (run plotOperations).array "p.q[X]".toList = [['a'], ['b']] := by decide +kernel
  refine ⟨hreachable, ?_, ?_, ?_⟩
  · have htotal : (run plotOperations).sectionCount "p.q[X]".toList = 1 := by decide +kernel
    rwa [htotal] at hsections
  · rw [← hcount]
    decide +kernel
  · have hlength := congrArg List.length harray
    rw [List.length_map, List.length_map, List.length_range, hlists] at hlength
    obtain rfl : 2 = n := hlength
    rwa [hlists] at hagree

end Store

end Keyfile
