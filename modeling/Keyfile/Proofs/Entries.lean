import Keyfile.Table
import Mathlib.Data.Set.Card

/-!
# Entries of tables

No table that is built by writing and erasing holds one name in two spellings, so that each entry is
found under its own name. Writing a list of pairs one after the other is described by looking up.
-/

namespace Keyfile

@[simp]
lemma sameName_iff {a b : Text} : sameName a b = true ↔ Text.lower a = Text.lower b := by
  simp [sameName]

lemma eq_or_mem_of_mem_place {α : Type} {p : α → Bool} {a b : α} {list : List α}
    (h : b ∈ place p a list) : b = a ∨ b ∈ list := by
  induction list with
  | nil => exact .inl (by simpa [place] using h)
  | cons c rest ih =>
    unfold place at h
    split at h
    · exact (List.mem_cons.1 h).imp_right (List.mem_cons_of_mem c)
    · rcases List.mem_cons.1 h with rfl | h
      · exact .inr List.mem_cons_self
      · exact (ih h).imp_right (List.mem_cons_of_mem c)

lemma place_eq_append {α : Type} {p : α → Bool} {a : α} {list : List α}
    (h : ∀ b ∈ list, p b = false) : place p a list = list ++ [a] := by
  induction list with
  | nil => rfl
  | cons b rest ih =>
    obtain ⟨hb, hrest⟩ := List.forall_mem_cons.1 h
    rw [place, hb, ih hrest]
    rfl

/-- No two of the pairs have the same name. -/
def Distinct (pairs : List (Text × Text)) : Prop :=
  pairs.Pairwise fun a b => Text.lower a.1 ≠ Text.lower b.1

/-- The number of the keys with a property, of entries of which no two have the same key. -/
lemma ncard_keys_eq_countP {entries : List (Text × Text)} (h : Distinct entries)
    {p : Text → Prop} {q : Text × Text → Bool}
    (hq : ∀ entry ∈ entries, q entry = true ↔ p entry.1) :
    {key | key ∈ entries.map (·.1) ∧ p key}.ncard = entries.countP q := by
  have hset : {key | key ∈ entries.map (·.1) ∧ p key} =
      (((entries.filter q).map (·.1)).toFinset : Set Text) := by
    ext key
    simp only [Set.mem_ofPred_eq, List.coe_toFinset, List.mem_map, List.mem_filter]
    constructor
    · rintro ⟨⟨entry, hentry, rfl⟩, hp⟩
      exact ⟨entry, ⟨hentry, (hq entry hentry).2 hp⟩, rfl⟩
    · rintro ⟨entry, ⟨hentry, hholds⟩, rfl⟩
      exact ⟨⟨entry, hentry, rfl⟩, (hq entry hentry).1 hholds⟩
  have hnodup : ((entries.filter q).map (·.1)).Nodup := by
    rw [List.Nodup, List.pairwise_map]
    exact (List.Pairwise.filter q h).imp fun hne heq => hne (by rw [heq])
  rw [hset, Set.ncard_coe_finset, List.toFinset_card_of_nodup hnodup, List.length_map,
    List.countP_eq_length_filter]

namespace Table

lemma distinct_insert {table : Table} (h : Distinct table.entries) (name value : Text) :
    Distinct (table.insert name value).entries := by
  obtain ⟨entries⟩ := table
  simp only [insert, Distinct] at h ⊢
  induction entries with
  | nil => simp [place]
  | cons entry rest ih =>
    obtain ⟨hentry, hrest⟩ := List.pairwise_cons.1 h
    unfold place
    split
    · rename_i hsame
      have hsame : Text.lower entry.1 = Text.lower name := by simpa using hsame
      refine List.pairwise_cons.2 ⟨fun other hother => ?_, hrest⟩
      rw [← hsame]
      exact hentry other hother
    · rename_i hother
      have hother : Text.lower entry.1 ≠ Text.lower name := by simpa using hother
      refine List.pairwise_cons.2 ⟨fun other hmem => ?_, ih hrest⟩
      rcases eq_or_mem_of_mem_place hmem with rfl | hmem
      · exact hother
      · exact hentry other hmem

lemma distinct_erase {table : Table} (h : Distinct table.entries) (name : Text) :
    Distinct (table.erase name).entries :=
  List.Pairwise.filter _ h

lemma get?_of_mem {table : Table} (h : Distinct table.entries) {entry : Text × Text}
    (hmem : entry ∈ table.entries) : table.get? entry.1 = some entry.2 := by
  obtain ⟨entries⟩ := table
  simp only [get?, Distinct] at h hmem ⊢
  induction entries with
  | nil => cases hmem
  | cons first rest ih =>
    obtain ⟨hfirst, hrest⟩ := List.pairwise_cons.1 h
    rcases List.mem_cons.1 hmem with rfl | hmem
    · simp
    · simpa [hfirst entry hmem] using ih hrest hmem

lemma distinct_foldl_insert {table : Table} (h : Distinct table.entries)
    (pairs : List (Text × Text)) :
    Distinct (pairs.foldl (fun table pair => table.insert pair.1 pair.2) table).entries := by
  induction pairs generalizing table with
  | nil => exact h
  | cons pair rest ih => exact ih (distinct_insert h pair.1 pair.2)

lemma get?_foldl_insert_of_notMem {pairs : List (Text × Text)} {name : Text}
    (h : ∀ pair ∈ pairs, Text.lower name ≠ Text.lower pair.1) (table : Table) :
    (pairs.foldl (fun table pair => table.insert pair.1 pair.2) table).get? name =
      table.get? name := by
  induction pairs generalizing table with
  | nil => rfl
  | cons pair rest ih =>
    obtain ⟨hpair, hrest⟩ := List.forall_mem_cons.1 h
    rw [List.foldl_cons, ih hrest, get?_insert, if_neg hpair]

/-- A name that is written once gets the value written. -/
lemma get?_foldl_insert_of_mem {pairs : List (Text × Text)} (hpairs : Distinct pairs)
    {pair : Text × Text} (hmem : pair ∈ pairs) {name : Text}
    (hname : Text.lower name = Text.lower pair.1) (table : Table) :
    (pairs.foldl (fun table pair => table.insert pair.1 pair.2) table).get? name =
      some pair.2 := by
  induction pairs generalizing table with
  | nil => cases hmem
  | cons first rest ih =>
    obtain ⟨hfirst, hrest⟩ := List.pairwise_cons.1 hpairs
    rw [List.foldl_cons]
    rcases List.mem_cons.1 hmem with rfl | hmem
    · have hkept : ∀ other ∈ rest, Text.lower name ≠ Text.lower other.1 := by
        intro other hother
        rw [hname]
        exact hfirst other hother
      rw [get?_foldl_insert_of_notMem hkept, get?_insert, if_pos hname]
    · exact ih hrest hmem _

/-- Pairs with names that are new are written at the end, in their order. -/
lemma entries_foldl_insert {pairs : List (Text × Text)} {table : Table}
    (h : Distinct (table.entries ++ pairs)) :
    (pairs.foldl (fun table pair => table.insert pair.1 pair.2) table).entries =
      table.entries ++ pairs := by
  induction pairs generalizing table with
  | nil => simp
  | cons pair rest ih =>
    have hinsert : (table.insert pair.1 pair.2).entries = table.entries ++ [pair] := by
      apply place_eq_append
      intro entry hentry
      have hne := (List.pairwise_append.1 h).2.2 entry hentry pair List.mem_cons_self
      simpa using hne
    have hsplit : table.entries ++ pair :: rest = table.entries ++ [pair] ++ rest := by simp
    rw [hsplit, ← hinsert] at h
    rw [List.foldl_cons, ih h, hinsert, hsplit]

lemma ofPairs_entries {table : Table} (h : Distinct table.entries) :
    ofPairs table.entries = table :=
  congrArg mk (entries_foldl_insert h)

end Table

end Keyfile
