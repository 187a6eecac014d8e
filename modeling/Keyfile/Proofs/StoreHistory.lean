import Keyfile.Proofs.Entries
import Keyfile.Store
import Mathlib.Data.List.DropRight

/-!
# Operations on stores

A store is changed by writes, removals, waiting values and merges in any order. Its marks and its
queues tell the operations since the last merge: a key is marked exactly when it was set and not
removed again, and the queue of a base holds the values that wait for it.
-/

namespace Keyfile.Store

inductive Operation
  | set (key value : Text)
  | remove (key : Text)
  | append (base value : Text)
  | merge
  deriving DecidableEq

namespace Operation

def apply (store : Store) : Operation → Store
  | set key value => store.set key value
  | remove key => store.remove key
  | append base value => store.append base value
  | merge => store.merge

/-- Whether the operation writes or removes the key, in any spelling. -/
def touches (key : Text) : Operation → Bool
  | set name _ => sameName name key
  | remove name => sameName name key
  | append _ _ => false
  | merge => false

/-- The value that the operation lets wait for a position of the base. -/
def waitingFor? (base : Text) : Operation → Option Text
  | append name value => if sameName name base then some value else none
  | set _ _ => none
  | remove _ => none
  | merge => none

end Operation

/-- The empty store after the operations, from left to right. -/
def run (operations : List Operation) : Store :=
  operations.foldl Operation.apply {}

def sinceMerge (operations : List Operation) : List Operation :=
  operations.rtakeWhile (· ≠ .merge)

/-- The key was last set to the value and not removed after that. -/
def LastSet (recent : List Operation) (key value : Text) : Prop :=
  ∃ before name after, recent = before ++ .set name value :: after ∧ sameName name key ∧
    ∀ operation ∈ after, ¬operation.touches key

/-- The values that wait for the positions of the base, in the order of their writing. -/
def waiting (recent : List Operation) (base : Text) : List Text :=
  recent.filterMap (·.waitingFor? base)

lemma get?_congr (store : Store) {a b : Text} (h : Text.lower a = Text.lower b) :
    store.get? a = store.get? b := by
  simp [get?, Table.get?, h]

lemma run_append (operations : List Operation) (operation : Operation) :
    run (operations ++ [operation]) = operation.apply (run operations) := by
  simp [run]

lemma sinceMerge_append_merge (operations : List Operation) :
    sinceMerge (operations ++ [.merge]) = [] := by
  simp [sinceMerge]

lemma sinceMerge_append {operation : Operation} (h : operation ≠ .merge)
    (operations : List Operation) :
    sinceMerge (operations ++ [operation]) = sinceMerge operations ++ [operation] := by
  simp [sinceMerge, h]

lemma waiting_append (recent : List Operation) (operation : Operation) (base : Text) :
    waiting (recent ++ [operation]) base =
      waiting recent base ++ (operation.waitingFor? base).toList := by
  rw [waiting, List.filterMap_append, ← waiting]
  cases h : operation.waitingFor? base <;> simp [h]

lemma waiting_congr (recent : List Operation) {a b : Text} (h : Text.lower a = Text.lower b) :
    waiting recent a = waiting recent b := by
  have hfor : ∀ operation : Operation, operation.waitingFor? a = operation.waitingFor? b := by
    rintro (_ | _ | _ | _) <;> simp [Operation.waitingFor?, h]
  simp [waiting, hfor]

lemma lastSet_congr {recent : List Operation} {a b value : Text}
    (h : Text.lower a = Text.lower b) : LastSet recent a value ↔ LastSet recent b value := by
  have htouches : ∀ operation : Operation, operation.touches a = operation.touches b := by
    rintro (_ | _ | _ | _) <;> simp [Operation.touches, sameName, h]
  simp [LastSet, h, htouches]

lemma not_lastSet_nil (key value : Text) : ¬LastSet [] key value := by
  rintro ⟨before, name, after, h, -⟩
  simp at h

/-- The last operation sets the key or leaves it alone. -/
lemma lastSet_append_iff {recent : List Operation} {operation : Operation} {key value : Text} :
    LastSet (recent ++ [operation]) key value ↔
      (∃ name, operation = .set name value ∧ sameName name key) ∨
        ¬operation.touches key ∧ LastSet recent key value := by
  constructor
  · rintro ⟨before, name, after, heq, hsame, hafter⟩
    rcases List.eq_nil_or_concat after with rfl | ⟨after, last, rfl⟩
    · obtain ⟨-, hlast⟩ := List.append_inj' heq rfl
      exact .inl ⟨name, by simpa using hlast, hsame⟩
    · have heq : recent ++ [operation] = (before ++ .set name value :: after) ++ [last] := by
        simpa using heq
      obtain ⟨hrecent, hlast⟩ := List.append_inj' heq rfl
      obtain rfl : operation = last := by simpa using hlast
      refine .inr ⟨hafter operation (by simp), before, name, after, hrecent, hsame, ?_⟩
      exact fun other hother => hafter other (by simp [hother])
  · rintro (⟨name, rfl, hsame⟩ | ⟨huntouched, before, name, after, rfl, hsame, hafter⟩)
    · exact ⟨recent, name, [], rfl, hsame, by simp⟩
    · refine ⟨before, name, after ++ [operation], by simp, hsame, ?_⟩
      intro other hother
      rcases List.mem_append.1 hother with hother | hother
      · exact hafter other hother
      · rwa [List.mem_singleton.1 hother]

/-- The marks and the queues of the store tell the operations since the last merge. -/
structure Tracks (store : Store) (recent : List Operation) : Prop where
  distinct : Distinct store.items.entries
  marked : ∀ key, store.isExplicit key ↔ ∃ value, LastSet recent key value
  last : ∀ key value, LastSet recent key value → store.get? key = some value
  separate : store.queues.Pairwise fun a b => Text.lower a.base ≠ Text.lower b.base
  queued : ∀ queue ∈ store.queues, queue.values = waiting recent queue.base
  complete : ∀ base, waiting recent base ≠ [] → ∃ queue ∈ store.queues, sameName queue.base base

lemma tracks_of_merged {store : Store} (hdistinct : Distinct store.items.entries)
    (hqueues : store.queues = []) (hexplicit : store.explicit = []) : store.Tracks [] where
  distinct := hdistinct
  marked key := by
    simp only [isExplicit, hexplicit, not_lastSet_nil, exists_false, iff_false]
    simp
  last key value h := absurd h (not_lastSet_nil key value)
  separate := by simp [hqueues]
  queued := by simp [hqueues]
  complete base h := absurd rfl h

lemma distinct_merge {store : Store} (h : Distinct store.items.entries) :
    Distinct store.merge.items.entries :=
  Table.distinct_foldl_insert h store.admitted

variable {store : Store} {recent : List Operation}

lemma waiting_append_of_none {operation : Operation} {base : Text}
    (h : operation.waitingFor? base = none) :
    waiting (recent ++ [operation]) base = waiting recent base := by
  simp [waiting_append, h]

lemma isExplicit_set (store : Store) (key value other : Text) :
    (store.set key value).isExplicit other ↔
      Text.lower other = Text.lower key ∨ store.isExplicit other := by
  simp [isExplicit, set]

lemma isExplicit_remove (store : Store) (key other : Text) :
    (store.remove key).isExplicit other ↔
      Text.lower other ≠ Text.lower key ∧ store.isExplicit other := by
  simp [isExplicit, remove, and_comm]

lemma Tracks.set (h : store.Tracks recent) (key value : Text) :
    (store.set key value).Tracks (recent ++ [.set key value]) where
  distinct := Table.distinct_insert h.distinct key value
  marked other := by
    rw [isExplicit_set, h.marked]
    simp only [lastSet_append_iff, Operation.touches, sameName_iff, Operation.set.injEq]
    constructor
    · rintro (heq | ⟨found, hfound⟩)
      · exact ⟨value, .inl ⟨key, ⟨rfl, rfl⟩, heq.symm⟩⟩
      · by_cases heq : Text.lower key = Text.lower other
        · exact ⟨value, .inl ⟨key, ⟨rfl, rfl⟩, heq⟩⟩
        · exact ⟨found, .inr ⟨heq, hfound⟩⟩
    · rintro ⟨found, ⟨name, ⟨rfl, rfl⟩, heq⟩ | ⟨-, hfound⟩⟩
      · exact .inl heq.symm
      · exact .inr ⟨found, hfound⟩
  last other found hfound := by
    rw [lastSet_append_iff] at hfound
    rw [get?, Store.set, Table.get?_insert]
    rcases hfound with ⟨name, heq, hsame⟩ | ⟨hother, hfound⟩
    · obtain ⟨rfl, rfl⟩ : key = name ∧ value = found := by simpa using heq
      rw [if_pos (sameName_iff.1 hsame).symm]
    · have hother : Text.lower key ≠ Text.lower other := by simpa [Operation.touches] using hother
      rw [if_neg hother.symm]
      exact h.last other found hfound
  separate := h.separate
  queued queue hqueue := by
    rw [waiting_append_of_none rfl]
    exact h.queued queue hqueue
  complete base hbase := by
    rw [waiting_append_of_none rfl] at hbase
    exact h.complete base hbase

lemma Tracks.remove (h : store.Tracks recent) (key : Text) :
    (store.remove key).Tracks (recent ++ [.remove key]) where
  distinct := Table.distinct_erase h.distinct key
  marked other := by
    rw [isExplicit_remove, h.marked, ne_comm]
    simp only [lastSet_append_iff, Operation.touches, sameName_iff, reduceCtorEq, false_and,
      exists_false, false_or, exists_and_left, ne_eq]
  last other found hfound := by
    rw [lastSet_append_iff] at hfound
    rw [get?, Store.remove, Table.get?_erase]
    rcases hfound with ⟨name, heq, -⟩ | ⟨hother, hfound⟩
    · cases heq
    · have hother : Text.lower key ≠ Text.lower other := by simpa [Operation.touches] using hother
      rw [if_neg hother.symm]
      exact h.last other found hfound
  separate := h.separate
  queued queue hqueue := by
    rw [waiting_append_of_none rfl]
    exact h.queued queue hqueue
  complete base hbase := by
    rw [waiting_append_of_none rfl] at hbase
    exact h.complete base hbase

/-- A queue with a waiting value more is an old queue, longer when its base is meant, or a new one
for a base without a queue. -/
lemma mem_enqueue {base value : Text} {queues : List Queue} {queue : Queue}
    (h : queue ∈ enqueue base value queues)
    (hseparate : queues.Pairwise fun a b => Text.lower a.base ≠ Text.lower b.base) :
    (queue = ⟨base, [value]⟩ ∧ ∀ other ∈ queues, Text.lower other.base ≠ Text.lower base) ∨
      ∃ old ∈ queues, queue.base = old.base ∧
        queue.values = if sameName old.base base then old.values ++ [value] else old.values := by
  induction queues with
  | nil => exact .inl ⟨List.mem_singleton.1 h, by simp⟩
  | cons first rest ih =>
    obtain ⟨hfirst, hrest⟩ := List.pairwise_cons.1 hseparate
    unfold enqueue at h
    split at h
    · rename_i hsame
      rcases List.mem_cons.1 h with rfl | h
      · exact .inr ⟨first, List.mem_cons_self, rfl, by rw [if_pos hsame]⟩
      · have hother : ¬sameName queue.base base := by
          rw [sameName_iff, ← sameName_iff.1 hsame]
          exact (hfirst queue h).symm
        exact .inr ⟨queue, List.mem_cons_of_mem first h, rfl, by rw [if_neg hother]⟩
    · rename_i hother
      rcases List.mem_cons.1 h with rfl | h
      · exact .inr ⟨queue, List.mem_cons_self, rfl, by rw [if_neg hother]⟩
      · rcases ih h hrest with ⟨rfl, hnew⟩ | ⟨old, hold, hqueue⟩
        · refine .inl ⟨rfl, List.forall_mem_cons.2 ⟨?_, hnew⟩⟩
          rwa [sameName_iff] at hother
        · exact .inr ⟨old, List.mem_cons_of_mem first hold, hqueue⟩

lemma separate_enqueue {queues : List Queue} (base value : Text)
    (h : queues.Pairwise fun a b => Text.lower a.base ≠ Text.lower b.base) :
    (enqueue base value queues).Pairwise fun a b => Text.lower a.base ≠ Text.lower b.base := by
  induction queues with
  | nil => simp [enqueue]
  | cons first rest ih =>
    obtain ⟨hfirst, hrest⟩ := List.pairwise_cons.1 h
    unfold enqueue
    split
    · exact List.pairwise_cons.2 ⟨hfirst, hrest⟩
    · rename_i hother
      refine List.pairwise_cons.2 ⟨fun queue hqueue => ?_, ih hrest⟩
      rcases mem_enqueue hqueue hrest with ⟨rfl, -⟩ | ⟨old, hold, hbase, -⟩
      · rwa [sameName_iff] at hother
      · rw [hbase]
        exact hfirst old hold

/-- The base has a queue, and so has every base that had one. -/
lemma exists_mem_enqueue (base value : Text) {queues : List Queue} {name : Text}
    (h : Text.lower base = Text.lower name ∨ ∃ queue ∈ queues, sameName queue.base name) :
    ∃ queue ∈ enqueue base value queues, sameName queue.base name := by
  induction queues with
  | nil =>
    have hsame : Text.lower base = Text.lower name := by simpa using h
    exact ⟨_, List.mem_singleton_self _, sameName_iff.2 hsame⟩
  | cons first rest ih =>
    rw [enqueue]
    by_cases hfirst : sameName first.base name
    · split
      · exact ⟨_, List.mem_cons_self, hfirst⟩
      · exact ⟨first, List.mem_cons_self, hfirst⟩
    · have hrest : Text.lower base = Text.lower name ∨ ∃ queue ∈ rest, sameName queue.base name := by
        have hother : ¬Text.lower first.base = Text.lower name := by simpa using hfirst
        simpa [hother] using h
      split
      · rename_i hsame
        rw [sameName_iff] at hsame hfirst
        obtain ⟨queue, hqueue, hname⟩ := hrest.resolve_left fun heq => hfirst (hsame.trans heq)
        exact ⟨queue, List.mem_cons_of_mem _ hqueue, hname⟩
      · obtain ⟨queue, hqueue, hname⟩ := ih hrest
        exact ⟨queue, List.mem_cons_of_mem _ hqueue, hname⟩

lemma lastSet_append_append_iff {base value key found : Text} :
    LastSet (recent ++ [.append base value]) key found ↔ LastSet recent key found := by
  simp [lastSet_append_iff, Operation.touches]

lemma Tracks.append (h : store.Tracks recent) (base value : Text) :
    (store.append base value).Tracks (recent ++ [.append base value]) where
  distinct := h.distinct
  marked other := by
    simp only [lastSet_append_append_iff]
    exact h.marked other
  last other found hfound := h.last other found (lastSet_append_append_iff.1 hfound)
  separate := separate_enqueue base value h.separate
  queued queue hqueue := by
    rw [waiting_append, Operation.waitingFor?]
    rcases mem_enqueue hqueue h.separate with ⟨rfl, hnew⟩ | ⟨old, hold, hbase, hvalues⟩
    · have hnone : waiting recent base = [] := by
        by_contra hsome
        obtain ⟨other, hother, hsame⟩ := h.complete base hsome
        exact hnew other hother (sameName_iff.1 hsame)
      simp [hnone]
    · rw [hvalues, hbase, h.queued old hold]
      by_cases hsame : Text.lower base = Text.lower old.base
      · simp [hsame]
      · have hsame' : ¬Text.lower old.base = Text.lower base := fun heq => hsame heq.symm
        simp [hsame, hsame']
  complete name hname := by
    apply exists_mem_enqueue base value
    by_cases hsame : Text.lower base = Text.lower name
    · exact .inl hsame
    · rw [waiting_append_of_none (by simp [Operation.waitingFor?, hsame])] at hname
      exact .inr (h.complete name hname)

/-- Every store that operations lead to tells the operations since the last merge. -/
theorem run_tracks (operations : List Operation) :
    (run operations).Tracks (sinceMerge operations) := by
  induction operations using List.reverseRecOn with
  | nil => exact tracks_of_merged List.Pairwise.nil rfl rfl
  | append_singleton operations operation ih =>
    rw [run_append]
    cases operation with
    | set key value =>
      rw [sinceMerge_append (by simp)]
      exact ih.set key value
    | remove key =>
      rw [sinceMerge_append (by simp)]
      exact ih.remove key
    | append base value =>
      rw [sinceMerge_append (by simp)]
      exact ih.append base value
    | merge =>
      rw [sinceMerge_append_merge]
      exact tracks_of_merged (distinct_merge ih.distinct) rfl rfl

end Keyfile.Store
