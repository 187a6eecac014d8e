import Keyfile.Proofs.CaseFolding
import Keyfile.Proofs.StoreHistory
import Mathlib.Data.Set.Card

/-!
# Merging waiting values

What a merge makes of a key depends on the operations since the previous merge alone: the last
explicit write, if it was not removed again, or else the waiting value of the key's position, or
else the value from before the merge.
-/

namespace Keyfile.Store

variable {store : Store} {recent : List Operation}

lemma mem_positions {base : Text} {first : Nat} {values : List Text} {pair : Text × Text} :
    pair ∈ positions base first values ↔
      ∃ index, values[index]? = some pair.2 ∧ pair.1 = Key.indexed base (first + index) := by
  induction values generalizing first with
  | nil => simp [positions]
  | cons value rest ih =>
    rw [positions, List.mem_cons, ih]
    constructor
    · rintro (rfl | ⟨index, hvalue, hkey⟩)
      · exact ⟨0, rfl, rfl⟩
      · exact ⟨index + 1, hvalue, by rw [hkey, Nat.add_right_comm, Nat.add_assoc]⟩
    · rintro ⟨_ | index, hvalue, hkey⟩
      · exact .inl (Prod.ext hkey (by simpa using hvalue.symm))
      · exact .inr ⟨index, hvalue, by rw [hkey, Nat.add_right_comm, Nat.add_assoc]⟩

lemma distinct_positions (base : Text) (first : Nat) (values : List Text) :
    Distinct (positions base first values) := by
  induction values generalizing first with
  | nil => exact List.Pairwise.nil
  | cons value rest ih =>
    refine List.pairwise_cons.2 ⟨fun pair hpair heq => ?_, ih (first + 1)⟩
    obtain ⟨index, -, hkey⟩ := mem_positions.1 hpair
    have hindex := (Key.lower_indexed_injective (hkey ▸ heq)).2
    omega

lemma Tracks.distinct_queued (h : store.Tracks recent) : Distinct store.queued := by
  refine List.pairwise_flatMap.2 ⟨fun queue _ => distinct_positions _ _ _, ?_⟩
  refine h.separate.imp fun hbase pair hpair other hother heq => ?_
  obtain ⟨i, -, hkey⟩ := mem_positions.1 hpair
  obtain ⟨j, -, hkey'⟩ := mem_positions.1 hother
  rw [hkey, hkey'] at heq
  exact hbase (Key.lower_indexed_injective heq).1

/-- A name is that of a waiting value with its position exactly when so many values wait. -/
lemma Tracks.mem_queued_iff (h : store.Tracks recent) {name value : Text} :
    (∃ pair ∈ store.queued, Text.lower pair.1 = Text.lower name ∧ pair.2 = value) ↔
      ∃ base index, Text.lower name = Text.lower (Key.indexed base index) ∧
        (waiting recent base)[index]? = some value := by
  constructor
  · rintro ⟨pair, hpair, hname, rfl⟩
    obtain ⟨queue, hqueue, hpair⟩ := List.mem_flatMap.1 hpair
    obtain ⟨index, hvalue, hkey⟩ := mem_positions.1 hpair
    refine ⟨queue.base, index, ?_, ?_⟩
    · rw [← hname, hkey, Nat.zero_add]
    · rwa [← h.queued queue hqueue]
  · rintro ⟨base, index, hname, hvalue⟩
    have hsome : waiting recent base ≠ [] := by
      intro hnone
      simp [hnone] at hvalue
    obtain ⟨queue, hqueue, hbase⟩ := h.complete base hsome
    have hbase := sameName_iff.1 hbase
    refine ⟨(Key.indexed queue.base index, value), ?_, ?_, rfl⟩
    · refine List.mem_flatMap.2 ⟨queue, hqueue, mem_positions.2 ⟨index, ?_, by simp⟩⟩
      rw [h.queued queue hqueue, waiting_congr recent hbase]
      exact hvalue
    · rw [hname, Key.lower_indexed, Key.lower_indexed, hbase]

/-- The keys of the admitted values, in lower case, are the positions without an explicit write. -/
lemma Tracks.mem_admitted_iff (h : store.Tracks recent) {name value : Text} :
    (∃ pair ∈ store.admitted, Text.lower pair.1 = Text.lower name ∧ pair.2 = value) ↔
      (¬∃ found, LastSet recent name found) ∧
        ∃ base index, Text.lower name = Text.lower (Key.indexed base index) ∧
          (waiting recent base)[index]? = some value := by
  rw [← h.mem_queued_iff, ← h.marked]
  constructor
  · rintro ⟨pair, hpair, hname, hvalue⟩
    obtain ⟨hqueued, hidle⟩ := List.mem_filter.1 hpair
    refine ⟨?_, pair, hqueued, hname, hvalue⟩
    simpa [isExplicit, hname] using hidle
  · rintro ⟨hidle, pair, hqueued, hname, hvalue⟩
    refine ⟨pair, List.mem_filter.2 ⟨hqueued, ?_⟩, hname, hvalue⟩
    simpa [isExplicit, hname] using hidle

lemma Tracks.distinct_admitted (h : store.Tracks recent) : Distinct store.admitted :=
  List.Pairwise.filter _ h.distinct_queued

/-- A key that was set since the last merge keeps its value. -/
lemma Tracks.get?_merge_of_lastSet (h : store.Tracks recent) {key value : Text}
    (hset : LastSet recent key value) : store.merge.get? key = some value := by
  rw [← h.last key value hset]
  refine Table.get?_foldl_insert_of_notMem (fun pair hpair heq => ?_) store.items
  have hidle := (h.mem_admitted_iff.1 ⟨pair, hpair, heq.symm, rfl⟩).1
  exact hidle ⟨value, hset⟩

/-- Any other key gets the value that waits for its position. -/
lemma Tracks.get?_merge_of_waiting (h : store.Tracks recent) {key value base : Text} {index : Nat}
    (hset : ¬∃ found, LastSet recent key found) (hkey : sameName key (Key.indexed base index))
    (hvalue : (waiting recent base)[index]? = some value) : store.merge.get? key = some value := by
  obtain ⟨pair, hpair, hname, rfl⟩ :=
    h.mem_admitted_iff.2 ⟨hset, base, index, sameName_iff.1 hkey, hvalue⟩
  exact Table.get?_foldl_insert_of_mem h.distinct_admitted hpair hname.symm store.items

/-- A key without an explicit write and without a waiting value is left alone. -/
lemma Tracks.get?_merge_of_none (h : store.Tracks recent) {key : Text}
    (hposition : ∀ base index, sameName key (Key.indexed base index) →
      (waiting recent base).length ≤ index) : store.merge.get? key = store.get? key := by
  refine Table.get?_foldl_insert_of_notMem (fun pair hpair heq => ?_) store.items
  obtain ⟨-, base, index, hname, hvalue⟩ := h.mem_admitted_iff.1 ⟨pair, hpair, heq.symm, rfl⟩
  have hlength := hposition base index (sameName_iff.2 hname)
  rw [List.getElem?_eq_none hlength] at hvalue
  cases hvalue

/-- The positions of waiting values that no explicit write shields, bases being in lower case. -/
def unshielded (recent : List Operation) : Set (Text × Nat) :=
  {position | ∃ base, position.1 = Text.lower base ∧
    position.2 < (waiting recent base).length ∧
      ¬∃ value, LastSet recent (Key.indexed base position.2) value}

lemma Tracks.image_unshielded (h : store.Tracks recent) :
    (fun position => Key.indexed position.1 position.2) '' unshielded recent =
      {name | name ∈ store.admitted.map fun pair => Text.lower pair.1} := by
  ext name
  simp only [Set.mem_image, Set.mem_ofPred_eq, List.mem_map]
  constructor
  · rintro ⟨⟨low, index⟩, ⟨base, rfl, hindex, hset⟩, rfl⟩
    obtain ⟨pair, hpair, hname, -⟩ := h.mem_admitted_iff.2
      ⟨hset, base, index, rfl, List.getElem?_eq_getElem hindex⟩
    exact ⟨pair, hpair, by rw [hname, Key.lower_indexed]⟩
  · rintro ⟨pair, hpair, rfl⟩
    obtain ⟨hset, base, index, hname, hvalue⟩ := h.mem_admitted_iff.1 ⟨pair, hpair, rfl, rfl⟩
    obtain ⟨hindex, -⟩ := List.getElem?_eq_some_iff.1 hvalue
    simp only [lastSet_congr hname] at hset
    refine ⟨(Text.lower base, index), ⟨base, rfl, hindex, hset⟩, ?_⟩
    rw [hname, Key.lower_indexed]

/-- A merge writes as many values as there are positions that no explicit write shields. -/
lemma Tracks.length_admitted (h : store.Tracks recent) :
    store.admitted.length = (unshielded recent).ncard := by
  have hinjective : Function.Injective fun position : Text × Nat =>
      Key.indexed position.1 position.2 := by
    intro a b heq
    obtain ⟨hbase, hindex⟩ := Key.indexed_injective heq
    exact Prod.ext hbase hindex
  have hnodup : (store.admitted.map fun pair => Text.lower pair.1).Nodup :=
    List.pairwise_map.2 h.distinct_admitted
  rw [← Set.ncard_image_of_injective _ hinjective, h.image_unshielded, ← List.coe_toFinset,
    Set.ncard_coe_finset, List.toFinset_card_of_nodup hnodup, List.length_map]

/-- After any operations no name is stored twice and every entry is found under its own name. A
merge then keeps what was set since the last merge, gives the waiting values their positions
elsewhere, leaves every other key alone, writes one value for each position that is not shielded,
and forgets what was waiting and what was marked. -/
theorem merge_after_operations (operations : List Operation) :
    (Distinct (run operations).items.entries ∧
      ∀ entry ∈ (run operations).items.entries, (run operations).get? entry.1 = some entry.2) ∧
    (∀ key,
      (∀ value, LastSet (sinceMerge operations) key value →
        (run operations).merge.get? key = some value) ∧
      ((¬∃ value, LastSet (sinceMerge operations) key value) →
        (∀ base index value, sameName key (Key.indexed base index) →
          (waiting (sinceMerge operations) base)[index]? = some value →
            (run operations).merge.get? key = some value) ∧
        ((∀ base index, sameName key (Key.indexed base index) →
          (waiting (sinceMerge operations) base).length ≤ index) →
            (run operations).merge.get? key = (run operations).get? key))) ∧
    (run operations).admitted.length = (unshielded (sinceMerge operations)).ncard ∧
    (run operations).merge.queues = [] ∧ (run operations).merge.explicit = [] := by
  have h := run_tracks operations
  refine ⟨⟨h.distinct, fun entry hentry => Table.get?_of_mem h.distinct hentry⟩,
    fun key => ⟨fun value hset => h.get?_merge_of_lastSet hset, fun hset => ⟨?_, ?_⟩⟩,
    h.length_admitted, rfl, rfl⟩
  · exact fun base index value hkey hvalue => h.get?_merge_of_waiting hset hkey hvalue
  · exact fun hposition => h.get?_merge_of_none hposition

end Keyfile.Store
