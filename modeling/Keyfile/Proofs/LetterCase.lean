import Keyfile.Key
import Keyfile.Proofs.CaseFolding
import Keyfile.Reference.Form
import Mathlib.Data.List.Forall2

/-!
# Texts that differ in the case of letters

Two texts are alike when their characters are, one by one. Whatever a relation on characters changes
in the case of the letters A to Z alone keeps the blanks, the brackets, the periods and the signs of
references where they are, so that alike texts are trimmed, cut and joined alike, and have the same
lower case.
-/

namespace Keyfile

/-- A character is the other one or its counterpart in the other case, among the letters A to Z. -/
def SameLetter (c d : Char) : Prop :=
  c.toLower = d.toLower

instance (c d : Char) : Decidable (SameLetter c d) :=
  inferInstanceAs (Decidable (_ = _))

lemma toLower_of_not {c : Char} (h : ¬('A'.val ≤ c.val ∧ c.val ≤ 'Z'.val)) : c.toLower = c :=
  dif_neg h

lemma toLower_of_le {c : Char} (h : 128 ≤ c.toNat) : c.toLower = c := by
  apply toLower_of_not
  rintro ⟨-, hhigh⟩
  have hhigh : c.toNat ≤ 90 := hhigh
  omega

/-- What does not see the case of the first 128 characters does not see the case of any. -/
lemma SameLetter.apply_eq {α : Type} (f : Char → α)
    (h : ∀ n < 128, f (Char.ofNat n) = f (Char.ofNat n).toLower) {c d : Char}
    (hcd : SameLetter c d) : f c = f d := by
  have hlower : ∀ c, f c = f c.toLower := by
    intro c
    by_cases hc : c.toNat < 128
    · have hascii := h c.toNat hc
      rwa [Char.ofNat_toNat] at hascii
    · rw [toLower_of_le (by omega)]
  rw [hlower c, hlower d, hcd]

lemma isAlpha_iff (c : Char) :
    c.isAlpha = true ↔ 0x41 ≤ c.toNat ∧ c.toNat ≤ 0x5a ∨ 0x61 ≤ c.toNat ∧ c.toNat ≤ 0x7a := by
  have hcases : c.isAlpha = (decide ('A'.val ≤ c.val ∧ c.val ≤ 'Z'.val) ||
      (decide ('a'.val ≤ c.val) && decide (c.val ≤ 'z'.val))) := rfl
  simp only [hcases, Bool.or_eq_true, Bool.and_eq_true, decide_eq_true_eq]
  rfl

lemma isCased_of_isAlpha {c : Char} (h : c.isAlpha) : Text.isCased c = true := by
  have hranges : (0x41, 0x5a) ∈ Text.casedRanges ∧ (0x61, 0x7a) ∈ Text.casedRanges := by
    decide +kernel
  rw [Text.isCased, List.any_eq_true]
  rcases (isAlpha_iff c).1 h with hupper | hlower
  · exact ⟨_, hranges.1, by simpa using hupper⟩
  · exact ⟨_, hranges.2, by simpa using hlower⟩

/-- No letter is skipped when the neighbours of a letter are looked at. -/
lemma isCaseIgnorable_of_isAlpha {c : Char} (h : c.isAlpha) : Text.isCaseIgnorable c = false := by
  have hranges : ∀ range ∈ Text.caseIgnorableRanges,
      range.2 < 0x41 ∨ 0x5a < range.1 ∧ range.2 < 0x61 ∨ 0x7a < range.1 := by
    decide +kernel
  rw [Text.isCaseIgnorable, List.any_eq_false]
  intro range hrange
  have hapart := hranges range hrange
  have hletter := (isAlpha_iff c).1 h
  simp only [Bool.and_eq_true, decide_eq_true_eq]
  omega

section Letters

variable {c d : Char} (h : SameLetter c d)

include h

lemma SameLetter.isAlpha_eq : c.isAlpha = d.isAlpha :=
  h.apply_eq Char.isAlpha (by decide +kernel)

/-- A character that is not a letter has no counterpart. -/
lemma SameLetter.eq_or_isAlpha : c = d ∨ c.isAlpha ∧ d.isAlpha := by
  cases hc : c.isAlpha with
  | true => exact .inr ⟨rfl, h.isAlpha_eq ▸ hc⟩
  | false =>
    have hkept : ∀ c : Char, c.isAlpha = false → c.toLower = c := by
      intro c hc
      apply toLower_of_not
      have hupper : decide ('A'.val ≤ c.val ∧ c.val ≤ 'Z'.val) = false :=
        (Bool.or_eq_false_iff.1 hc).1
      simpa using hupper
    left
    rw [← hkept c hc, ← hkept d (h.isAlpha_eq ▸ hc), h]

lemma SameLetter.eq_iff (sign : Char) (hsign : sign.isAlpha = false) : c = sign ↔ d = sign := by
  rcases h.eq_or_isAlpha with rfl | ⟨hc, hd⟩
  · rfl
  · constructor
    · rintro rfl
      simp [hsign] at hc
    · rintro rfl
      simp [hsign] at hd

lemma SameLetter.isBlank_eq : Text.isBlank c = Text.isBlank d :=
  h.apply_eq Text.isBlank (by decide +kernel)

lemma SameLetter.lowerChar_eq : Text.lowerChar c = Text.lowerChar d :=
  h.apply_eq Text.lowerChar (by decide +kernel)

lemma SameLetter.isCased_eq : Text.isCased c = Text.isCased d := by
  rcases h.eq_or_isAlpha with rfl | ⟨hc, hd⟩
  · rfl
  · rw [isCased_of_isAlpha hc, isCased_of_isAlpha hd]

lemma SameLetter.isCaseIgnorable_eq : Text.isCaseIgnorable c = Text.isCaseIgnorable d := by
  rcases h.eq_or_isAlpha with rfl | ⟨hc, hd⟩
  · rfl
  · rw [isCaseIgnorable_of_isAlpha hc, isCaseIgnorable_of_isAlpha hd]

end Letters

/-- The texts differ in nothing but the case of letters. -/
def Recased : Text → Text → Prop :=
  List.Forall₂ SameLetter

instance (s t : Text) : Decidable (Recased s t) :=
  inferInstanceAs (Decidable (List.Forall₂ SameLetter s t))

section Cutting

variable {letter : Char → Char → Prop} {p : Char → Bool} {s t : Text}

lemma forall₂_dropWhile (hp : ∀ c d, letter c d → p c = p d) (h : List.Forall₂ letter s t) :
    List.Forall₂ letter (s.dropWhile p) (t.dropWhile p) := by
  induction h with
  | nil => exact .nil
  | @cons c d s t hletter htail ih =>
    rw [List.dropWhile_cons, List.dropWhile_cons, hp c d hletter]
    split
    · exact ih
    · exact .cons hletter htail

lemma forall₂_takeWhile (hp : ∀ c d, letter c d → p c = p d) (h : List.Forall₂ letter s t) :
    List.Forall₂ letter (s.takeWhile p) (t.takeWhile p) := by
  induction h with
  | nil => exact .nil
  | @cons c d s t hletter htail ih =>
    rw [List.takeWhile_cons, List.takeWhile_cons, hp c d hletter]
    split
    · exact .cons hletter ih
    · exact .nil

lemma forall₂_dropTail (hp : ∀ c d, letter c d → p c = p d) (h : List.Forall₂ letter s t) :
    List.Forall₂ letter (Text.dropTail p s) (Text.dropTail p t) :=
  List.rel_reverse (forall₂_dropWhile hp (List.rel_reverse h))

lemma all_eq_of_forall₂ (hp : ∀ c d, letter c d → p c = p d) (h : List.Forall₂ letter s t) :
    s.all p = t.all p := by
  induction h with
  | nil => rfl
  | cons hletter _ ih => rw [List.all_cons, List.all_cons, hp _ _ hletter, ih]

variable (hcase : ∀ c d, letter c d → SameLetter c d) (h : List.Forall₂ letter s t)

include hcase h

lemma forall₂_trim : List.Forall₂ letter (Text.trim s) (Text.trim t) := by
  have hblank : ∀ c d, letter c d → Text.isBlank c = Text.isBlank d :=
    fun c d hletter => (hcase c d hletter).isBlank_eq
  exact forall₂_dropTail hblank (forall₂_dropWhile hblank h)

lemma getLast?_eq_iff_of_forall₂ (sign : Char) (hsign : sign.isAlpha = false) :
    s.getLast? = some sign ↔ t.getLast? = some sign := by
  have hhead : ∀ {s t : Text}, List.Forall₂ letter s t →
      (s.head? = some sign ↔ t.head? = some sign) := by
    intro s t h
    cases h with
    | nil => rfl
    | cons hletter _ => simpa using (hcase _ _ hletter).eq_iff _ hsign
  rw [← List.head?_reverse, ← List.head?_reverse]
  exact hhead (List.rel_reverse h)

end Cutting

namespace Key

section Joining

variable {letter : Char → Char → Prop} (hcase : ∀ c d, letter c d → SameLetter c d)
  {s t : Text} {first first' second second' : Option Text}

include hcase

lemma forall₂_withoutFinalPeriod (h : List.Forall₂ letter s t) :
    List.Forall₂ letter (withoutFinalPeriod s) (withoutFinalPeriod t) := by
  have hperiod := getLast?_eq_iff_of_forall₂ hcase h '.' rfl
  have hinit : List.Forall₂ letter s.dropLast t.dropLast := by
    rw [List.dropLast_eq_take, List.dropLast_eq_take, h.length_eq]
    exact List.forall₂_take _ h
  unfold withoutFinalPeriod
  by_cases hlast : t.getLast? = some '.'
  · rw [if_pos hlast, if_pos (hperiod.2 hlast)]
    exact hinit
  · rw [if_neg hlast, if_neg fun heq => hlast (hperiod.1 heq)]
    exact h

lemma forall₂_withoutInitialPeriod (h : List.Forall₂ letter s t) :
    List.Forall₂ letter (withoutInitialPeriod s) (withoutInitialPeriod t) := by
  cases h with
  | nil => exact .nil
  | @cons c d s t hletter htail =>
    have hperiod := (hcase c d hletter).eq_iff '.' rfl
    by_cases hd : d = '.'
    · obtain rfl := hperiod.2 hd
      subst hd
      exact htail
    · have hkept : ∀ {c : Char} {rest : Text}, c ≠ '.' →
          withoutInitialPeriod (c :: rest) = c :: rest := by
        intro c rest hc
        unfold withoutInitialPeriod
        split
        · rename_i heq
          exact absurd (List.cons.inj heq).1 hc
        · rfl
      rw [hkept hd, hkept fun heq => hd (hperiod.1 heq)]
      exact .cons hletter htail

lemma isAllBlank_eq_of_forall₂ (h : List.Forall₂ letter s t) :
    Text.isAllBlank s = Text.isAllBlank t :=
  all_eq_of_forall₂ (fun c d hletter => (hcase c d hletter).isBlank_eq) h

variable (hrefl : ∀ c, letter c c)

include hrefl

/-- Alike keys are joined alike. -/
lemma rel_join (hfirst : Option.Rel (List.Forall₂ letter) first first')
    (hsecond : Option.Rel (List.Forall₂ letter) second second') :
    Option.Rel (List.Forall₂ letter) (join first second) (join first' second') := by
  have htail : Option.Rel (List.Forall₂ letter) (second.map withoutInitialPeriod)
      (second'.map withoutInitialPeriod) := by
    cases hsecond with
    | none => exact .none
    | some h => exact .some (forall₂_withoutInitialPeriod hcase h)
  unfold join
  revert htail
  generalize second.map withoutInitialPeriod = tail
  generalize second'.map withoutInitialPeriod = tail'
  intro htail
  cases hfirst with
  | none => exact htail
  | some h =>
    have hhead := forall₂_withoutFinalPeriod hcase h
    simp only [Option.map_some, isAllBlank_eq_of_forall₂ hcase hhead]
    split
    · exact htail
    · cases htail with
      | none => exact .some hhead
      | some h =>
        simp only [isAllBlank_eq_of_forall₂ hcase h]
        split
        · exact .some hhead
        · exact .some (List.rel_append hhead (.cons (hrefl '.') h))

lemma forall₂_qualify (hscope : Option.Rel (List.Forall₂ letter) first first')
    (h : List.Forall₂ letter s t) :
    List.Forall₂ letter (qualify first s) (qualify first' t) := by
  have hjoin := rel_join hcase hrefl hscope (.some h)
  unfold qualify
  revert hjoin
  generalize join first (some s) = full
  generalize join first' (some t) = full'
  intro hjoin
  cases hjoin with
  | none => exact h
  | some hfull =>
    cases hfull with
    | nil => exact h
    | cons hletter htail => exact .cons hletter htail

end Joining

end Key

namespace Recased

variable {s t : Text}

lemma meetsCased_cons (c : Char) (t : Text) :
    Text.meetsCased (c :: t) =
      if Text.isCaseIgnorable c then Text.meetsCased t else Text.isCased c := by
  unfold Text.meetsCased
  rw [List.dropWhile_cons]
  by_cases hc : Text.isCaseIgnorable c = true
  · rw [if_pos hc, if_pos hc]
  · rw [if_neg hc, if_neg hc]

lemma meetsCased_eq (h : Recased s t) : Text.meetsCased s = Text.meetsCased t := by
  induction h with
  | nil => rfl
  | cons hletter _ ih =>
    rw [meetsCased_cons, meetsCased_cons, hletter.isCaseIgnorable_eq, hletter.isCased_eq, ih]

lemma lowerAfter_eq (h : Recased s t) {before before' : Text} (hbefore : Recased before before') :
    Text.lowerAfter before s = Text.lowerAfter before' t := by
  induction h generalizing before before' with
  | nil => rfl
  | @cons c d s t hletter htail ih =>
    -- a capital sigma is lowered by its neighbours, which have or lack case on both sides
    rw [Text.lowerAfter, Text.lowerAfter, ih (.cons hletter hbefore), hletter.lowerChar_eq,
      Text.lowerSigma, Text.lowerSigma, meetsCased_eq hbefore, meetsCased_eq htail]
    simp only [hletter.eq_iff Text.capitalSigma (by decide)]

theorem lower_eq (h : Recased s t) : Text.lower s = Text.lower t :=
  h.lowerAfter_eq .nil

lemma eq_nil_iff (h : Recased s t) : s = [] ↔ t = [] := by
  cases h <;> simp

lemma isPrefixOf_eq {mark : Text} (hmark : mark.any Char.isAlpha = false) (h : Recased s t) :
    mark.isPrefixOf s = mark.isPrefixOf t := by
  induction mark generalizing s t with
  | nil => rfl
  | cons sign mark ih =>
    rw [List.any_cons, Bool.or_eq_false_iff] at hmark
    obtain ⟨hsign, hrest⟩ := hmark
    cases h with
    | nil => rfl
    | @cons c d s t hletter htail =>
      have hhead : (sign == c) = (sign == d) := by
        rw [Bool.eq_iff_iff, beq_iff_eq, beq_iff_eq, eq_comm, hletter.eq_iff _ hsign, eq_comm]
      rw [List.isPrefixOf, List.isPrefixOf, ih hrest htail, hhead]

lemma isSuffixOf_eq {mark : Text} (hmark : mark.any Char.isAlpha = false) (h : Recased s t) :
    mark.isSuffixOf s = mark.isSuffixOf t :=
  isPrefixOf_eq (by rwa [List.any_reverse]) (List.rel_reverse h)

lemma includes_eq {mark : Text} (hmark : mark.any Char.isAlpha = false) (h : Recased s t) :
    Text.includes mark s = Text.includes mark t := by
  unfold Text.includes
  induction h with
  | nil => rfl
  | @cons c d s t hletter htail ih =>
    have hstart : mark.isPrefixOf (c :: s) = mark.isPrefixOf (d :: t) :=
      isPrefixOf_eq hmark (.cons hletter htail)
    rw [Text.cutFirst, Text.cutFirst, hstart]
    split
    · rfl
    · rwa [Option.isSome_map, Option.isSome_map]

lemma hasReferences_eq (h : Recased s t) : hasReferences s = hasReferences t := by
  unfold hasReferences Form.occursIn
  rw [h.includes_eq (by decide), h.includes_eq (by decide)]

end Recased

end Keyfile
