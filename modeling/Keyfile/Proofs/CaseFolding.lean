import Keyfile.Key
import Keyfile.Text.Case
import Mathlib.Data.List.Basic

/-!
# Lower case of indexed keys

A bracket is not a letter and is not skipped when the neighbours of a letter are looked at, so the
lower case of an indexed key is the lower case of its base with the index behind it. Two indexed
keys are therefore the same name only when their bases are and their indexes are equal.
-/

namespace Keyfile

namespace Text

/-- A character that is its own lower case everywhere. -/
def Steady (c : Char) : Prop :=
  c ≠ capitalSigma ∧ lowerChar c = [c]

instance (c : Char) : Decidable (Steady c) :=
  inferInstanceAs (Decidable (_ ∧ _))

/-- A character that ends the look at the neighbours of a letter without being a letter. -/
def Stops (c : Char) : Prop :=
  isCaseIgnorable c = false ∧ isCased c = false

instance (c : Char) : Decidable (Stops c) :=
  inferInstanceAs (Decidable (_ ∧ _))

lemma lowerAfter_of_steady {t : Text} (h : ∀ c ∈ t, Steady c) (before : Text) :
    lowerAfter before t = t := by
  induction t generalizing before with
  | nil => rfl
  | cons c rest ih =>
    obtain ⟨⟨hsigma, hlower⟩, hrest⟩ := List.forall_mem_cons.1 h
    rw [lowerAfter, if_neg hsigma, hlower, ih hrest]
    rfl

/-- What stands behind a character that stops the look is not seen from before it. -/
lemma meetsCased_append_stop {stop : Char} (h : Stops stop) (t after : Text) :
    meetsCased (t ++ stop :: after) = meetsCased t := by
  induction t with
  | nil => simp [meetsCased, h.1, h.2]
  | cons c rest ih =>
    simp only [meetsCased, List.cons_append, List.dropWhile_cons] at ih ⊢
    cases isCaseIgnorable c with
    | true => simpa using ih
    | false => simp

lemma lowerAfter_append_stop {stop : Char} (h : Stops stop) (before t after : Text) :
    lowerAfter before (t ++ stop :: after) =
      lowerAfter before t ++ lowerAfter (t.reverse ++ before) (stop :: after) := by
  induction t generalizing before with
  | nil => rfl
  | cons c rest ih =>
    simp only [List.cons_append, lowerAfter, lowerSigma, meetsCased_append_stop h, ih]
    simp

/-- What stands in front of a character that stops the look is not seen from behind it. -/
lemma lowerAfter_behind_stop {stop : Char} (h : Stops stop) (near far far' t : Text) :
    lowerAfter (near ++ stop :: far) t = lowerAfter (near ++ stop :: far') t := by
  induction t generalizing near with
  | nil => rfl
  | cons c rest ih =>
    rw [lowerAfter, lowerAfter, lowerSigma, lowerSigma, meetsCased_append_stop h,
      meetsCased_append_stop h]
    exact congrArg _ (ih (c :: near))

/-- A character of ASCII other than the letters and what comes after the small ones. -/
def IsSign (c : Char) : Prop :=
  0 < c.toNat ∧ c.toNat ≤ 0x60 ∧ ¬(0x41 ≤ c.toNat ∧ c.toNat ≤ 0x5a)

instance (c : Char) : Decidable (IsSign c) :=
  inferInstanceAs (Decidable (_ ∧ _))

lemma IsSign.steady {c : Char} (h : IsSign c) : Steady c := by
  obtain ⟨-, hhigh, hcapital⟩ := h
  constructor
  · rintro rfl
    exact absurd hhigh (by decide)
  · have hascii : c.toNat < 0x80 := by omega
    simp [lowerChar, hascii, hcapital]

lemma isSign_of_isDigit {c : Char} (h : c.isDigit) : IsSign c := by
  simp only [Char.isDigit, Bool.and_eq_true, decide_eq_true_eq, ge_iff_le] at h
  have hlow : 0x30 ≤ c.toNat := h.1
  have hhigh : c.toNat ≤ 0x39 := h.2
  unfold IsSign
  omega

lemma steady_of_isDigit {c : Char} (h : c.isDigit) : Steady c :=
  (isSign_of_isDigit h).steady

lemma ofNat_ne_nil (n : Nat) : ofNat n ≠ [] :=
  Nat.toDigits_ne_nil

lemma isDigit_of_mem_ofNat {n : Nat} {c : Char} (h : c ∈ ofNat n) : c.isDigit :=
  Nat.isDigit_of_mem_toDigits (by decide) (by decide) h

lemma notMem_ofNat {c : Char} (h : c.isDigit = false) (n : Nat) : c ∉ ofNat n := by
  intro hmem
  rw [isDigit_of_mem_ofNat hmem] at h
  cases h

lemma lower_ofNat (n : Nat) : lower (ofNat n) = ofNat n :=
  lowerAfter_of_steady (fun _ hc => steady_of_isDigit (isDigit_of_mem_ofNat hc)) []

lemma ofNat_injective {m n : Nat} (h : ofNat m = ofNat n) : m = n := by
  rw [← Nat.ofDigitChars_ten_toDigits (n := m), ← Nat.ofDigitChars_ten_toDigits (n := n)]
  exact congrArg (Nat.ofDigitChars 10 · 0) h

lemma cutLastAt_of_notMem {mark : Char} {t : Text} (h : mark ∉ t) : cutLastAt mark t = none := by
  induction t with
  | nil => rfl
  | cons c rest ih =>
    obtain ⟨hc, hrest⟩ : mark ≠ c ∧ mark ∉ rest := by simpa using h
    simp [cutLastAt, ih hrest, hc.symm]

lemma cutLastAt_append_cons {mark : Char} {after : Text} (h : mark ∉ after) (before : Text) :
    cutLastAt mark (before ++ mark :: after) = some (before, after) := by
  induction before with
  | nil => simp [cutLastAt, cutLastAt_of_notMem h]
  | cons c rest ih => simp [cutLastAt, ih]

lemma notMem_of_cutLastAt {mark : Char} {t : Text} (h : cutLastAt mark t = none) :
    mark ∉ t := by
  induction t with
  | nil => exact List.not_mem_nil
  | cons c rest ih =>
    rw [cutLastAt] at h
    split at h
    · cases h
    · split at h
      · cases h
      · rename_i hrest hc
        exact List.not_mem_cons_of_ne_of_not_mem (Ne.symm hc) (ih hrest)

lemma cutLastAt_eq_some_iff {mark : Char} {t before after : Text} :
    cutLastAt mark t = some (before, after) ↔ t = before ++ mark :: after ∧ mark ∉ after := by
  refine ⟨fun h => ?_, fun ⟨ht, hafter⟩ => ht ▸ cutLastAt_append_cons hafter before⟩
  induction t generalizing before with
  | nil => cases h
  | cons c rest ih =>
    rw [cutLastAt] at h
    split at h
    · obtain ⟨rfl, rfl⟩ := Prod.mk.inj (Option.some.inj h)
      obtain ⟨hrest, hafter⟩ := ih ‹_›
      exact ⟨congrArg (c :: ·) hrest, hafter⟩
    · rename_i hnone
      split at h
      · obtain ⟨rfl, rfl⟩ := Prod.mk.inj (Option.some.inj h)
        exact ⟨by simp [*], notMem_of_cutLastAt hnone⟩
      · cases h

end Text

namespace Key

/-- A bracket separates the base before it, which is lowered by itself, from what stands behind. -/
lemma lower_append_bracket (base rest : Text) :
    Text.lower (base ++ '[' :: rest) = Text.lower base ++ '[' :: Text.lowerAfter ['['] rest := by
  have hstop : Text.Stops '[' := by decide +kernel
  have hbehind := Text.lowerAfter_behind_stop hstop [] (base.reverse ++ []) [] rest
  rw [Text.lower, Text.lowerAfter_append_stop hstop, Text.lowerAfter, if_neg (by decide)]
  exact congrArg (fun behind => Text.lower base ++ '[' :: behind) hbehind

lemma lower_append_bracket_of_steady {rest : Text} (h : ∀ c ∈ rest, Text.Steady c) (base : Text) :
    Text.lower (base ++ '[' :: rest) = Text.lower base ++ '[' :: rest := by
  rw [lower_append_bracket, Text.lowerAfter_of_steady h]

lemma isSign_of_mem_index {index : Nat} {c : Char} (h : c ∈ Text.ofNat index ++ [']']) :
    Text.IsSign c := by
  rcases List.mem_append.1 h with h | h
  · exact Text.isSign_of_isDigit (Text.isDigit_of_mem_ofNat h)
  · obtain rfl := List.mem_singleton.1 h
    decide

lemma indexed_eq (base : Text) (index : Nat) :
    indexed base index = base ++ '[' :: (Text.ofNat index ++ [']']) := by
  simp [indexed]

/-- The base of an indexed key is lowered and its index is kept. -/
theorem lower_indexed (base : Text) (index : Nat) :
    Text.lower (indexed base index) = indexed (Text.lower base) index := by
  rw [indexed_eq, indexed_eq,
    lower_append_bracket_of_steady fun c hc => (isSign_of_mem_index hc).steady]

lemma bracket_notMem_index (index : Nat) : '[' ∉ Text.ofNat index ++ [']'] := by
  intro hmem
  have hmem : '[' ∈ Text.ofNat index := by simpa using hmem
  exact absurd (Text.isDigit_of_mem_ofNat hmem) (by decide)

lemma cutLastAt_indexed (base : Text) (index : Nat) :
    Text.cutLastAt '[' (indexed base index) = some (base, Text.ofNat index ++ [']']) := by
  rw [indexed_eq, Text.cutLastAt_append_cons (bracket_notMem_index index)]

lemma indexed_injective {a b : Text} {i j : Nat} (h : indexed a i = indexed b j) :
    a = b ∧ i = j := by
  have hparts : (a, Text.ofNat i ++ [']']) = (b, Text.ofNat j ++ [']']) := by
    rw [← Option.some_inj, ← cutLastAt_indexed, ← cutLastAt_indexed, h]
  obtain ⟨rfl, hindex⟩ := Prod.mk.inj hparts
  exact ⟨rfl, Text.ofNat_injective (List.append_cancel_right hindex)⟩

/-- Indexed keys are the same name only for the same base and the same index. -/
theorem lower_indexed_injective {a b : Text} {i j : Nat}
    (h : Text.lower (indexed a i) = Text.lower (indexed b j)) :
    Text.lower a = Text.lower b ∧ i = j := by
  rw [lower_indexed, lower_indexed] at h
  exact indexed_injective h

end Key

end Keyfile
