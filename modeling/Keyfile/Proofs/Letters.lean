import Keyfile.Proofs.CaseFolding

/-!
# Lower case letter by letter

Only the capital sigma is lowered by what stands beside it, and only the capital I with dot above
becomes two characters. A text without the one is lowered alike wherever it stands, and a text
without both keeps its length.
-/

namespace Keyfile.Text

/-- The capital I with dot above. -/
def dottedCapital : Char :=
  Char.ofNat 0x130

def lowerLetter (c : Char) : Char :=
  (lowerChar c).headD c

lemma exists_lowerChar_eq_cons (c : Char) : ∃ tail, lowerChar c = lowerLetter c :: tail := by
  unfold lowerLetter lowerChar
  dsimp only
  split
  · exact ⟨[], rfl⟩
  · split
    · exact ⟨_, rfl⟩
    · exact ⟨[], rfl⟩

lemma lowerChar_of_ne {c : Char} (h : c ≠ dottedCapital) : lowerChar c = [lowerLetter c] := by
  have hne : ¬c.toNat = 0x130 := by
    intro heq
    apply h
    rw [dottedCapital, ← heq, Char.ofNat_toNat]
  unfold lowerLetter lowerChar
  by_cases hascii : c.toNat < 0x80
  · simp [hascii]
  · simp [hascii, hne]

lemma flatMap_lowerChar_of_notMem {t : Text} (h : dottedCapital ∉ t) :
    t.flatMap lowerChar = t.map lowerLetter := by
  induction t with
  | nil => rfl
  | cons c t ih =>
    obtain ⟨hc, ht⟩ : dottedCapital ≠ c ∧ dottedCapital ∉ t := by simpa using h
    rw [List.flatMap_cons, List.map_cons, lowerChar_of_ne hc.symm, ih ht]
    rfl

lemma lowerAfter_append_of_notMem {t : Text} (h : capitalSigma ∉ t) (before rest : Text) :
    lowerAfter before (t ++ rest) =
      t.flatMap lowerChar ++ lowerAfter (t.reverse ++ before) rest := by
  induction t generalizing before with
  | nil => rfl
  | cons c t ih =>
    obtain ⟨hc, ht⟩ : capitalSigma ≠ c ∧ capitalSigma ∉ t := by simpa using h
    rw [List.cons_append, lowerAfter, if_neg hc.symm, ih ht]
    simp

lemma lower_of_notMem {t : Text} (h : capitalSigma ∉ t) : lower t = t.flatMap lowerChar := by
  have happend := lowerAfter_append_of_notMem h [] []
  rw [List.append_nil, lowerAfter, List.append_nil] at happend
  exact happend

lemma lt_lowerCodePoint {n : Nat} (h : 0x80 ≤ n) : 0x60 < lowerCodePoint n := by
  have hruns : ∀ run ∈ caseRuns, (0x60 : Int) < run.shift + run.first := by decide +kernel
  unfold lowerCodePoint
  split
  · rename_i run hfind
    have hrun := hruns run (List.mem_of_find?_eq_some hfind)
    have hin := List.find?_some hfind
    simp only [Bool.and_eq_true, decide_eq_true_eq] at hin
    omega
  · omega

lemma IsSign.ne_ofNat {c : Char} (hc : IsSign c) {n : Nat} (h : 0x60 < n) : c ≠ Char.ofNat n := by
  rintro rfl
  obtain ⟨hpos, hhigh, -⟩ := hc
  by_cases hvalid : n.isValidChar
  · have hnat : (Char.ofNat n).toNat = n := by
      rw [Char.ofNat, dif_pos hvalid]
      rfl
    omega
  · rw [Char.ofNat, dif_neg hvalid] at hpos
    exact absurd hpos (by decide)

/-- A sign is the lower case of no other character. -/
lemma eq_of_mem_lowerChar {c d : Char} (hd : IsSign d) (h : d ∈ lowerChar c) : d = c := by
  unfold lowerChar at h
  by_cases hascii : c.toNat < 0x80
  · by_cases hcapital : 0x41 ≤ c.toNat ∧ c.toNat ≤ 0x5a
    · simp only [hascii, hcapital, if_true, decide_true, Bool.and_self, List.mem_singleton] at h
      exact absurd h (hd.ne_ofNat (by omega))
    · simpa [hascii, hcapital] using h
  · by_cases hdotted : c.toNat = 0x130
    · have hcases : d = 'i' ∨ d = Char.ofNat 0x307 := by simpa [hdotted] using h
      rcases hcases with heq | heq
      · exact absurd hd (heq ▸ by decide)
      · exact absurd heq (hd.ne_ofNat (by decide))
    · simp only [hascii, hdotted, if_false, beq_iff_eq, List.mem_singleton] at h
      exact absurd h (hd.ne_ofNat (lt_lowerCodePoint (by omega)))

lemma eq_period_of_lowerLetter {c : Char} (h : lowerLetter c = '.') : c = '.' := by
  obtain ⟨tail, hc⟩ := exists_lowerChar_eq_cons c
  exact (eq_of_mem_lowerChar (by decide) (by rw [hc, h]; exact List.mem_cons_self)).symm

lemma exists_lowerAfter_cons (before : Text) (c : Char) (rest : Text) :
    ∃ first tail, lowerAfter before (c :: rest) = first :: tail ++ lowerAfter (c :: before) rest ∧
      ∀ d, IsSign d → d ∈ first :: tail → d = c := by
  by_cases hc : c = capitalSigma
  · refine ⟨lowerSigma before rest, [], by rw [lowerAfter, if_pos hc], fun d hd hmem => ?_⟩
    obtain rfl := List.mem_singleton.1 hmem
    unfold lowerSigma at hd
    split at hd
    · exact absurd hd (by decide)
    · exact absurd hd (by decide)
  · obtain ⟨tail, hlower⟩ := exists_lowerChar_eq_cons c
    refine ⟨lowerLetter c, tail, by rw [lowerAfter, if_neg hc, hlower], fun d hd hmem => ?_⟩
    rw [← hlower] at hmem
    exact eq_of_mem_lowerChar hd hmem

lemma lower_eq_nil_iff {t : Text} : lower t = [] ↔ t = [] := by
  cases t with
  | nil => exact iff_of_true rfl rfl
  | cons c rest =>
    obtain ⟨first, tail, heq, -⟩ := exists_lowerAfter_cons [] c rest
    simp [lower, heq]

/-- A sign in the lower case of a text stands in the text. -/
lemma mem_of_mem_lowerAfter {c : Char} (hc : IsSign c) {before t : Text}
    (h : c ∈ lowerAfter before t) : c ∈ t := by
  induction t generalizing before with
  | nil => cases h
  | cons d rest ih =>
    obtain ⟨first, tail, heq, hown⟩ := exists_lowerAfter_cons before d rest
    rw [heq, List.mem_append] at h
    rcases h with h | h
    · exact List.mem_cons.2 (.inl (hown c hc h))
    · exact List.mem_cons_of_mem d (ih h)

/-- A text that is signs alone in lower case is signs alone, which are their own lower case. -/
lemma eq_lowerAfter_of_signs {before t : Text} (h : ∀ c ∈ lowerAfter before t, IsSign c) :
    lowerAfter before t = t := by
  apply lowerAfter_of_steady
  induction t generalizing before with
  | nil => exact fun c hc => absurd hc List.not_mem_nil
  | cons d rest ih =>
    obtain ⟨first, tail, heq, hown⟩ := exists_lowerAfter_cons before d rest
    rw [heq] at h
    have hfirst : IsSign first := h first (by simp)
    refine List.forall_mem_cons.2 ⟨?_, ih fun c hc => h c (List.mem_append_right _ hc)⟩
    exact hown first hfirst List.mem_cons_self ▸ hfirst.steady

end Keyfile.Text
