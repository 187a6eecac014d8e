import Keyfile.Proofs.WrittenAddresses
import Keyfile.Reference.Form
import Keyfile.Value.Uuid

/-!
# Identifiers read back from their texts

The text of an identifier has no mark, brace or blank that its reader leaves out, and without its
hyphens it is made of the 32 hexadecimal digits of the identifier's number.
-/

namespace Keyfile

namespace Text

variable {c : Char} {t : Text}

/-- A hexadecimal digit is a decimal one or a letter up to the sixth. -/
lemma toNat_of_hexValue? (h : hexValue? c ≠ none) : (0x30 ≤ c.toNat ∧ c.toNat ≤ 0x39) ∨
    (0x41 ≤ c.toNat ∧ c.toNat ≤ 0x46) ∨ (0x61 ≤ c.toNat ∧ c.toNat ≤ 0x66) := by
  by_contra hnot
  refine h ?_
  simp only [hexValue?, Bool.and_eq_true, decide_eq_true_eq]
  rw [if_neg, if_neg, if_neg] <;> omega

lemma isBlank_of_hexValue? (h : hexValue? c ≠ none) : isBlank c = false := by
  have hrange := toNat_of_hexValue? h
  simp only [isBlank, Bool.or_eq_false_iff, Bool.and_eq_false_iff, decide_eq_false_iff_not,
    beq_eq_false_iff_ne, ne_eq]
  omega

/-- A mark is not found in a text that lacks one of its characters. -/
lemma cutFirst_eq_none {mark : Text} (hmark : c ∈ mark) (h : c ∉ t) : cutFirst mark t = none := by
  cases hcut : cutFirst mark t with
  | none => rfl
  | some parts =>
    have hmem : c ∈ parts.1 ++ mark ++ parts.2 := by simp [hmark]
    rw [← Text.eq_of_cutFirst hcut] at hmem
    exact absurd hmem h

lemma dropWhile_eq_self {p : Char → Bool} (h : ∀ c ∈ t, p c = false) : t.dropWhile p = t := by
  cases t with
  | nil => rfl
  | cons c rest => exact List.dropWhile_cons_of_neg (by simp [h c List.mem_cons_self])

lemma dropTail_eq_self {p : Char → Bool} (h : ∀ c ∈ t, p c = false) : dropTail p t = t := by
  rw [dropTail, dropWhile_eq_self fun c hc => h c (List.mem_reverse.1 hc), List.reverse_reverse]

end Text

namespace Uuid

variable {t : Text}

lemma withoutMark_eq_self {mark : Text} (h : Text.cutFirst mark t = none) (bound : Nat) :
    withoutMark mark bound t = t := by
  cases bound with
  | zero => rfl
  | succ bound => rw [withoutMark, h]

lemma withPlainDigits_eq_self (h : ∀ c ∈ t, Text.hexValue? c ≠ none) : withPlainDigits t = t := by
  refine (List.map_congr_left fun c hc => ?_).trans (List.map_id t)
  have hrange := Text.toNat_of_hexValue? (h c hc)
  rw [Text.digitValue?]
  simp only [Bool.and_eq_true, decide_eq_true_eq]
  split_ifs with hdigit
  · rw [Option.map_some, Option.getD_some, Nat.add_sub_cancel' hdigit.1, Char.ofNat_toNat, id]
  · rfl
  · omega

lemma digitsWithUnderscores?_eq (hne : t ≠ []) (h : ∀ c ∈ t, Text.hexValue? c ≠ none) :
    digitsWithUnderscores? t = t.mapM Text.hexValue? := by
  induction t with
  | nil => exact absurd rfl hne
  | cons c rest ih =>
    obtain ⟨hc, hrest⟩ := List.forall_mem_cons.1 h
    cases rest with
    | nil =>
      rw [digitsWithUnderscores?, List.mapM_cons, List.mapM_nil]
      cases Text.hexValue? c <;> rfl
    | cons d others =>
      have hd : d ≠ '_' := by
        rintro rfl
        exact (List.forall_mem_cons.1 hrest).1 (by decide)
      rw [List.mapM_cons, ← ih (List.cons_ne_nil _ _) hrest]
      rw [digitsWithUnderscores?]
      · exact List.cons_ne_nil _ _
      · rintro rest ⟨⟩
        exact hd rfl

lemma withoutBase_eq_self (h : ∀ c ∈ t, Text.hexValue? c ≠ none) : withoutBase t = t := by
  unfold withoutBase
  split
  · rename_i x rest
    have hx : ¬(x = 'x' ∨ x = 'X') := by
      rintro (rfl | rfl)
      · exact h 'x' (by simp) (by decide)
      · exact h 'X' (by simp) (by decide)
    rw [if_neg (by simpa using hx)]
  · rfl

/-- Hexadecimal digits are read as their number. -/
lemma number?_eq (hne : t ≠ []) (h : ∀ c ∈ t, Text.hexValue? c ≠ none) :
    number? t = (t.mapM Text.hexValue?).map Text.natOfHexDigits := by
  have hblank : ∀ c ∈ t, isNumberBlank c = false := fun c hc => by
    rw [isNumberBlank, Text.isBlank_of_hexValue? (h c hc), Bool.false_and]
  unfold number?
  rw [Text.dropWhile_eq_self hblank, Text.dropTail_eq_self hblank, withPlainDigits_eq_self h]
  dsimp only
  split
  · exact absurd (by decide) (h '+' List.mem_cons_self)
  · rw [withoutBase_eq_self h, digitsWithUnderscores?_eq hne h]

/-- The digits of the number of an identifier. -/
def digits (uuid : Uuid) : Text :=
  Text.hexDigits 32 uuid.value.toNat

lemma length_digits (uuid : Uuid) : uuid.digits.length = 32 := by
  have hlt : uuid.value.toNat < 16 ^ 32 := uuid.value.isLt
  have hlength := (Nat.length_toDigits_le_iff (by decide) (by decide)).2 hlt
  rw [digits, Text.hexDigits, List.length_append, List.length_replicate]
  omega

lemma hexValue?_of_mem_digits {uuid : Uuid} {c : Char} (h : c ∈ uuid.digits) :
    Text.hexValue? c ≠ none :=
  Text.hexValue?_of_mem_hexDigits h

/-- Hyphens and digits are all that the text of an identifier has. -/
lemma eq_hyphen_or_mem_of_mem_text {uuid : Uuid} {c : Char} (h : c ∈ uuid.text) :
    c = '-' ∨ c ∈ uuid.digits := by
  refine (Text.eq_or_exists_of_mem_join h).imp_right fun ⟨part, hpart, hc⟩ => ?_
  simp only [List.mem_cons, List.not_mem_nil, or_false] at hpart
  rcases hpart with rfl | rfl | rfl | rfl | rfl
  all_goals exact List.mem_of_mem_drop (List.mem_of_mem_take hc)

lemma notMem_text {c : Char} (hhyphen : c ≠ '-') (hhex : Text.hexValue? c = none) (uuid : Uuid) :
    c ∉ uuid.text :=
  fun h => (eq_hyphen_or_mem_of_mem_text h).elim hhyphen fun hmem =>
    hexValue?_of_mem_digits hmem hhex

/-- Without its hyphens the text of an identifier is made of its digits. -/
lemma filter_text (uuid : Uuid) : uuid.text.filter (· != '-') = uuid.digits := by
  have hkept (start length : Nat) : ((uuid.digits.drop start).take length).filter (· != '-') =
      (uuid.digits.drop start).take length := by
    refine List.filter_eq_self.2 fun c hc => ?_
    rw [bne_iff_ne]
    rintro rfl
    exact hexValue?_of_mem_digits (List.mem_of_mem_drop (List.mem_of_mem_take hc)) (by decide)
  have hjoined (start length : Nat) :
      (uuid.digits.drop start).take length ++ uuid.digits.drop (start + length) =
        uuid.digits.drop start := by
    rw [← List.drop_drop, List.take_append_drop]
  have hlast : (uuid.digits.drop 20).take 12 = uuid.digits.drop 20 := by
    refine List.take_of_length_le ?_
    rw [List.length_drop, length_digits]
  have hhyphen : ['-'].filter (· != '-') = [] := rfl
  have htext : uuid.text = (uuid.digits.drop 0).take 8 ++ ['-'] ++
      ((uuid.digits.drop 8).take 4 ++ ['-'] ++ ((uuid.digits.drop 12).take 4 ++ ['-'] ++
        ((uuid.digits.drop 16).take 4 ++ ['-'] ++ (uuid.digits.drop 20).take 12))) := rfl
  rw [htext]
  simp only [List.filter_append, hkept, hhyphen, List.append_nil]
  rw [hlast, hjoined 16 4, hjoined 12 4, hjoined 8 4, hjoined 0 8, List.drop_zero]

/-- An identifier is read back from its text. -/
theorem ofText?_text (uuid : Uuid) : ofText? uuid.text = some uuid := by
  have hletter := notMem_text (by decide) (by decide : Text.hexValue? 'u' = none) uuid
  have hurn : Text.cutFirst "urn:".toList uuid.text = none :=
    Text.cutFirst_eq_none (by decide : 'u' ∈ "urn:".toList) hletter
  have huuid : Text.cutFirst "uuid:".toList uuid.text = none :=
    Text.cutFirst_eq_none (by decide : 'u' ∈ "uuid:".toList) hletter
  have hbraces : withoutBraces uuid.text = uuid.text := by
    have hbrace : ∀ c ∈ uuid.text, (c == '\x7b' || c == '\x7d') = false := by
      intro c hc
      rw [Bool.or_eq_false_iff, beq_eq_false_iff_ne, beq_eq_false_iff_ne]
      constructor <;> rintro rfl
      · exact notMem_text (by decide) (by decide) uuid hc
      · exact notMem_text (by decide) (by decide) uuid hc
    rw [withoutBraces, Text.dropWhile_eq_self hbrace, Text.dropTail_eq_self hbrace]
  obtain ⟨values, hvalues, hnumber⟩ := Text.exists_hexValues 32 uuid.value.toNat
  have hread : number? uuid.digits = some uuid.value.toNat := by
    have hne : uuid.digits ≠ [] := List.ne_nil_of_length_pos (by rw [length_digits]; decide)
    rw [number?_eq hne fun c => hexValue?_of_mem_digits, digits, hvalues, Option.map_some, hnumber]
  rw [ofText?]
  simp only [withoutMark_eq_self hurn, withoutMark_eq_self huuid, hbraces, filter_text, hread]
  simp [length_digits, guard]

end Uuid

end Keyfile
