import Keyfile.Proofs.Entries
import Keyfile.Proofs.Letters
import Keyfile.Proofs.WrittenNumbers

/-!
# Integers read exactly up to their bounds

The texts of an integer are described without their reader: a sign or none, decimal digits of any
script, and behind them a letter for a power of 1024 or none. A width answers such a text with its
number wherever the number fits, a name of a bound with the bound, and every other text with the
default. What does not depend on the default with 32 bits is the same with 64.
-/

namespace Keyfile

namespace Text

/-- No blank stands among the digits of a script. -/
lemma blanks_of_mem_digitRuns : ∀ run ∈ digitRuns, 0x660 ≤ run.1 ∧
    (run.2 < 0x1680 ∨ 0x1680 < run.1 ∧ run.2 < 0x2000 ∨ 0x3000 < run.1) := by
  decide

/-- No letter with another lower case stands among the digits of a script. -/
lemma letters_of_mem_digitRuns : ∀ run ∈ digitRuns, ∀ letters ∈ caseRuns,
    run.2 < letters.first ∨ letters.last < run.1 := by
  decide +kernel

/-- A digit is one of ASCII or stands among the digits of another script. -/
lemma isDigit_or_exists_mem_digitRuns {c : Char} {value : Nat} (h : digitValue? c = some value) :
    c.isDigit = true ∨ ∃ run ∈ digitRuns, run.1 ≤ c.toNat ∧ c.toNat ≤ run.2 := by
  simp only [digitValue?] at h
  split at h
  · rename_i hascii
    simp only [Bool.and_eq_true, decide_eq_true_eq] at hascii
    refine .inl ?_
    simp only [Char.isDigit, Bool.and_eq_true, decide_eq_true_eq, ge_iff_le]
    exact hascii
  · split at h
    · cases h
    · obtain ⟨run, hrun, -⟩ := Option.map_eq_some_iff.1 h
      have hin := List.find?_some hrun
      simp only [Bool.and_eq_true, decide_eq_true_eq] at hin
      exact .inr ⟨run, List.mem_of_find?_eq_some hrun, hin⟩

lemma isBlank_of_digitValue? {c : Char} {value : Nat} (h : digitValue? c = some value) :
    isBlank c = false := by
  rcases isDigit_or_exists_mem_digitRuns h with hascii | ⟨run, hrun, hin⟩
  · exact isBlank_of_isDigit hascii
  · have hblanks := blanks_of_mem_digitRuns run hrun
    simp only [isBlank, Bool.or_eq_false_iff, Bool.and_eq_false_iff, decide_eq_false_iff_not,
      beq_eq_false_iff_ne, ne_eq]
    omega

lemma steady_of_digitValue? {c : Char} {value : Nat} (h : digitValue? c = some value) :
    Steady c := by
  rcases isDigit_or_exists_mem_digitRuns h with hascii | ⟨run, hrun, hin⟩
  · exact steady_of_isDigit hascii
  · have hlow := (blanks_of_mem_digitRuns run hrun).1
    have hunlettered : (caseRuns.find? fun letters => letters.first ≤ c.toNat &&
        c.toNat ≤ letters.last && (c.toNat - letters.first) % letters.step == 0) = none := by
      rw [List.find?_eq_none]
      intro letters hletters hmem
      simp only [Bool.and_eq_true, decide_eq_true_eq] at hmem
      have hapart := letters_of_mem_digitRuns run hrun letters hletters
      omega
    refine ⟨?_, ?_⟩
    · rintro rfl
      have hsigma : capitalSigma.toNat = 0x3a3 := by decide
      omega
    · have hascii : ¬c.toNat < 0x80 := by omega
      have hdotted : ¬c.toNat = 0x130 := by omega
      simp [lowerChar, hascii, hdotted, lowerCodePoint, hunlettered]

lemma magnitudePower?_of_digitValue? {c : Char} {value : Nat} (h : digitValue? c = some value) :
    magnitudePower? c = none := by
  have hlower : lower [c] = [c] :=
    lowerAfter_of_steady (List.forall_mem_singleton.2 (steady_of_digitValue? h)) []
  rw [magnitudePower?, hlower]
  split
  all_goals first | rfl | (rename_i heq; cases heq; cases h)

lemma exists_digitValue?_of_mem {t : Text} {values : List Nat} (h : digits? t = some values)
    {c : Char} (hc : c ∈ t) : ∃ value, digitValue? c = some value := by
  rw [← Option.ne_none_iff_exists']
  intro hnone
  rw [digits?, mapM_eq_none hc hnone] at h
  cases h

end Text

/-- A text is decimal digits, at least one, and stands for the number that they spell. -/
def Unsigned (t : Text) (n : Nat) : Prop :=
  t ≠ [] ∧ ∃ values, Text.digits? t = some values ∧ Text.natOfDigits values = n

/-- A text is decimal digits after an optional sign and stands for the integer. -/
inductive Signed : Text → Int → Prop
  | bare {t : Text} {n : Nat} (h : Unsigned t n) : Signed t n
  | plus {t : Text} {n : Nat} (h : Unsigned t n) : Signed ('+' :: t) n
  | minus {t : Text} {n : Nat} (h : Unsigned t n) : Signed ('-' :: t) (-n)

namespace Unsigned

variable {t : Text} {n : Nat}

lemma exists_digitValue? (h : Unsigned t n) {c : Char} (hc : c ∈ t) :
    ∃ value, Text.digitValue? c = some value := by
  obtain ⟨-, values, hvalues, -⟩ := h
  exact Text.exists_digitValue?_of_mem hvalues hc

lemma notMem (h : Unsigned t n) {c : Char} (hc : Text.digitValue? c = none) : c ∉ t := by
  intro hmem
  obtain ⟨value, hvalue⟩ := h.exists_digitValue? hmem
  rw [hc] at hvalue
  cases hvalue

lemma countP_isDigit (h : Unsigned t n) : t.countP Text.isDigit = t.length := by
  rw [List.countP_eq_length]
  intro c hc
  obtain ⟨value, hvalue⟩ := h.exists_digitValue? hc
  rw [Text.isDigit, hvalue, Option.isSome_some]

/-- The digits are those of a numeral, with a sign in front as without one. -/
lemma exists_digits (h : Unsigned t n) : ∃ values, Text.digits? t = some values ∧
    Text.natOfDigits values = n ∧ values.length = t.countP Text.isDigit := by
  obtain ⟨values, hvalues, hn⟩ := h.2
  exact ⟨values, hvalues, hn, by rw [length_of_mapM hvalues, h.countP_isDigit]⟩

end Unsigned

namespace Signed

variable {t : Text} {n : Int}

lemma of_ofText? {numeral : Numeral} (h : Numeral.ofText? t = some numeral) :
    Signed t numeral.value := by
  unfold Numeral.ofText? at h
  split at h
  rename_i hparts
  split at hparts
  all_goals
    cases hparts
    rw [Option.ite_none_left_eq_some] at h
    obtain ⟨hne, h⟩ := h
    obtain ⟨values, hvalues, rfl⟩ := Option.map_eq_some_iff.1 h
  · exact .minus ⟨hne, values, hvalues, rfl⟩
  · exact .plus ⟨hne, values, hvalues, rfl⟩
  · exact .bare ⟨hne, values, hvalues, rfl⟩

/-- An integer with a sign is read as a numeral with no more digits than the text has. -/
lemma exists_ofText? (h : Signed t n) : ∃ numeral, Numeral.ofText? t = some numeral ∧
    numeral.value = n ∧ numeral.digits.length ≤ t.countP Text.isDigit := by
  cases h with
  | bare h =>
    obtain ⟨values, hvalues, rfl, hlength⟩ := h.exists_digits
    refine ⟨⟨false, values⟩, ?_, rfl, hlength.le⟩
    rw [Numeral.ofText?_of_unsigned h.1 (h.notMem (by decide)) (h.notMem (by decide)), hvalues,
      Option.map_some]
  | plus h =>
    obtain ⟨values, hvalues, rfl, hlength⟩ := h.exists_digits
    refine ⟨⟨false, values⟩, ?_, rfl, hlength.le.trans (List.sublist_cons_self ..).countP_le⟩
    simp [Numeral.ofText?, h.1, hvalues]
  | minus h =>
    obtain ⟨values, hvalues, rfl, hlength⟩ := h.exists_digits
    refine ⟨⟨true, values⟩, ?_, rfl, hlength.le.trans (List.sublist_cons_self ..).countP_le⟩
    simp [Numeral.ofText?, h.1, hvalues]

lemma exists_getLast? (h : Signed t n) :
    ∃ c value, t.getLast? = some c ∧ Text.digitValue? c = some value := by
  obtain ⟨front, digits, m, rfl, hdigits⟩ : ∃ front digits m, t = front ++ digits ∧
      Unsigned digits m := by
    cases h with
    | bare h => exact ⟨[], _, _, rfl, h⟩
    | plus h => exact ⟨['+'], _, _, rfl, h⟩
    | minus h => exact ⟨['-'], _, _, rfl, h⟩
  obtain ⟨value, hvalue⟩ := hdigits.exists_digitValue? (List.getLast_mem hdigits.1)
  refine ⟨_, value, ?_, hvalue⟩
  rw [List.getLast?_append_of_ne_nil _ hdigits.1, List.getLast?_eq_some_getLast hdigits.1]

lemma eq_sign_or_digitValue?_of_mem (h : Signed t n) {c : Char} (hc : c ∈ t) :
    c = '+' ∨ c = '-' ∨ ∃ value, Text.digitValue? c = some value := by
  cases h with
  | bare h => exact .inr (.inr (h.exists_digitValue? hc))
  | plus h => exact (List.mem_cons.1 hc).imp id fun hc => .inr (h.exists_digitValue? hc)
  | minus h => exact .inr ((List.mem_cons.1 hc).imp id h.exists_digitValue?)

end Signed

/-- The letters of the powers of 1024. -/
def magnitudeLetters : List (Char × Nat) :=
  [('k', 1), ('m', 2), ('g', 3), ('t', 4)]

lemma magnitudePower?_eq_some_iff {letter : Char} {power : Nat} :
    magnitudePower? letter = some power ↔
      ∃ small, (small, power) ∈ magnitudeLetters ∧ sameName [letter] [small] = true := by
  have hsmall : ∀ entry ∈ magnitudeLetters, Text.lower [entry.1] = [entry.1] := by decide
  constructor
  · intro h
    unfold magnitudePower? at h
    split at h
    case h_5 => cases h
    all_goals
      rename_i hlower
      cases h
    · exact ⟨'k', by decide, sameName_iff.2 hlower⟩
    · exact ⟨'m', by decide, sameName_iff.2 hlower⟩
    · exact ⟨'g', by decide, sameName_iff.2 hlower⟩
    · exact ⟨'t', by decide, sameName_iff.2 hlower⟩
  · rintro ⟨small, hmem, hname⟩
    rw [sameName_iff, hsmall _ hmem] at hname
    rw [magnitudePower?, hname]
    simp only [magnitudeLetters, List.mem_cons, Prod.mk.injEq, List.not_mem_nil, or_false] at hmem
    rcases hmem with ⟨rfl, rfl⟩ | ⟨rfl, rfl⟩ | ⟨rfl, rfl⟩ | ⟨rfl, rfl⟩ <;> rfl

/-- What may stand behind the digits: nothing, or blanks and a letter for a power of 1024, small or
capital. -/
inductive Suffix : Text → Nat → Prop
  | nothing : Suffix [] 0
  | letter {blanks : Text} {letter small : Char} {power : Nat}
      (hblanks : ∀ c ∈ blanks, Text.isBlank c) (hsmall : (small, power) ∈ magnitudeLetters)
      (hletter : sameName [letter] [small] = true) : Suffix (blanks ++ [letter]) power

/-- A text is an integer with a sign or none and a suffix for a power of 1024. -/
def Counted (t : Text) (n : Int) (power : Nat) : Prop :=
  ∃ number suffix, t = number ++ suffix ∧ Signed number n ∧ Suffix suffix power

namespace Counted

variable {t : Text} {n : Int} {power : Nat}

lemma of_magnified {number : Text} {numeral : Numeral} (hmagnitude : Magnified t number power)
    (hnumeral : Numeral.ofText? number = some numeral) : Counted t numeral.value power := by
  have hsigned := Signed.of_ofText? hnumeral
  cases hmagnitude with
  | plain => exact ⟨t, [], (List.append_nil t).symm, hsigned, .nothing⟩
  | lettered hletter hblanks =>
    obtain ⟨small, hsmall, hname⟩ := magnitudePower?_eq_some_iff.1 hletter
    exact ⟨number, _, List.append_assoc .., hsigned, .letter hblanks hsmall hname⟩

/-- The reader divides the text where the suffix begins, since no suffix can be taken from what
ends in a digit. -/
lemma exists_magnified (h : Counted t n power) : ∃ number numeral, Magnified t number power ∧
    Numeral.ofText? number = some numeral ∧ numeral.value = n ∧
      numeral.digits.length ≤ t.countP Text.isDigit := by
  obtain ⟨number, suffix, rfl, hsigned, hsuffix⟩ := h
  obtain ⟨last, value, hlast, hvalue⟩ := hsigned.exists_getLast?
  obtain ⟨numeral, hnumeral, hn, hlength⟩ := hsigned.exists_ofText?
  refine ⟨number, numeral, ?_, hnumeral, hn, ?_⟩
  · cases hsuffix with
    | nothing =>
      rw [List.append_nil]
      refine .plain fun c hc => ?_
      obtain rfl : last = c := Option.some.inj (hlast.symm.trans hc)
      exact Text.magnitudePower?_of_digitValue? hvalue
    | letter hblanks hsmall hname =>
      rw [← List.append_assoc]
      refine .lettered (magnitudePower?_eq_some_iff.2 ⟨_, hsmall, hname⟩) hblanks fun c hc => ?_
      obtain rfl : last = c := Option.some.inj (hlast.symm.trans hc)
      exact Text.isBlank_of_digitValue? hvalue
  · exact hlength.trans (List.sublist_append_left ..).countP_le

/-- No full stop stands in an integer, and so it is none of the named bounds. -/
lemma notMem_stop (h : Counted t n power) : '.' ∉ t := by
  obtain ⟨number, suffix, rfl, hsigned, hsuffix⟩ := h
  rw [List.mem_append, not_or]
  constructor
  · intro hmem
    rcases hsigned.eq_sign_or_digitValue?_of_mem hmem with heq | heq | ⟨value, hvalue⟩
    · exact absurd heq (by decide)
    · exact absurd heq (by decide)
    · cases hvalue
  · cases hsuffix with
    | nothing => exact List.not_mem_nil
    | letter hblanks hsmall hname =>
      intro hmem
      rcases List.mem_append.1 hmem with hmem | hmem
      · exact absurd (hblanks '.' hmem) (by decide)
      · obtain rfl := List.mem_singleton.1 hmem
        have hpower := magnitudePower?_eq_some_iff.2 ⟨_, hsmall, hname⟩
        cases hpower

end Counted

lemma Text.trim_sublist (t : Text) : (trim t).Sublist t :=
  (List.rdropWhile_prefix isBlank (trimStart t)).sublist.trans (List.dropWhile_sublist isBlank)

namespace Width

variable {width : Width} {t : Text} {n : Int}

def bitCount : Width → Nat
  | bits32 => 32
  | bits64 => 64

/-- The integers of two's complement with the bits of a width. -/
def InRange (width : Width) (n : Int) : Prop :=
  -2 ^ (width.bitCount - 1) ≤ n ∧ n ≤ 2 ^ (width.bitCount - 1) - 1

instance : Decidable (width.InRange n) :=
  inferInstanceAs (Decidable (_ ∧ _))

lemma admits_iff : width.admits n = true ↔ width.InRange n := by
  rw [admits, Bool.and_eq_true, decide_eq_true_eq, decide_eq_true_eq, InRange]
  cases width <;> simp only [bound, bitCount] <;> omega

lemma InRange.bits64 (h : bits32.InRange n) : bits64.InRange n := by
  simp only [InRange, bitCount] at h ⊢
  omega

/-- A bound that a text names, in whatever case, is found under the name. -/
lemma lookup_of_sameName {name : Text} (hmem : (name, n) ∈ width.constants)
    (hname : sameName t name = true) : width.constants.lookup (Text.lower t) = some n := by
  have hown : ∀ width : Width, ∀ entry ∈ width.constants,
      width.constants.lookup (Text.lower entry.1) = some entry.2 := by
    rintro (_ | _) <;> decide
  rw [sameName_iff.1 hname]
  exact hown width _ hmem

lemma lookup_eq_none (h : ∀ entry ∈ width.constants, sameName t entry.1 = false) :
    width.constants.lookup (Text.lower t) = none := by
  have hlower : ∀ width : Width, ∀ entry ∈ width.constants, Text.lower entry.1 = entry.1 := by
    rintro (_ | _) <;> decide
  rw [List.lookup_eq_none_iff]
  intro entry hentry
  rw [bne_iff_ne]
  intro heq
  have hsame : sameName t entry.1 = true := by rw [sameName_iff, hlower width entry hentry, heq]
  rw [h entry hentry] at hsame
  cases hsame

lemma lookup_of_notMem_stop (h : '.' ∉ t) : width.constants.lookup (Text.lower t) = none := by
  have hstop : ∀ width : Width, ∀ entry ∈ width.constants, '.' ∈ entry.1 := by
    rintro (_ | _) <;> decide
  rw [List.lookup_eq_none_iff]
  intro entry hentry
  rw [bne_iff_ne]
  rintro heq
  have hmem := hstop width entry hentry
  rw [← heq] at hmem
  exact h (Text.mem_of_mem_lowerAfter (by decide) hmem)

lemma inRange_of_mem_constants :
    ∀ width : Width, ∀ entry ∈ width.constants, width.InRange entry.2 := by
  rintro (_ | _) <;> decide

/-- Only what the width has room for is denoted. -/
lemma Denotes.inRange (h : width.Denotes t n) : width.InRange n := by
  cases h with
  | named h =>
    obtain ⟨before, after, hconstants, -⟩ := List.lookup_eq_some_iff.1 h
    have hmem : (Text.lower (Text.trim t), n) ∈ width.constants := by simp [hconstants]
    exact inRange_of_mem_constants width _ hmem
  | counted _ _ _ _ hadmits => exact admits_iff.1 hadmits

/-- A text with no more digits than are read does not ask too much. -/
lemma not_refuses (h : t.countP Text.isDigit ≤ Numeral.digitLimit) : ¬width.Refuses t := by
  rintro ⟨-, number, power, numeral, hmagnitude, hnumeral, hillegible⟩
  obtain ⟨_, _, hother, hsame, -, hlength⟩ :=
    (Counted.of_magnified hmagnitude hnumeral).exists_magnified
  cases (splitMagnitude_eq_iff.2 hmagnitude).symm.trans (splitMagnitude_eq_iff.2 hother)
  cases hnumeral.symm.trans hsame
  exact hillegible (hlength.trans ((Text.trim_sublist t).countP_le.trans h))

/-- What 32 bits read at all is read alike with 64. -/
lemma read_bits64 (h : bits32.read t ≠ .ok none) : bits64.read t = bits32.read t := by
  rw [read] at h
  rw [read, read]
  dsimp only at h ⊢
  cases hname : bits32.constants.lookup (Text.lower (Text.trim t)) with
  | some n =>
    have hlong : bits64.constants.lookup (Text.lower (Text.trim t)) = some n := by
      rw [constants, List.lookup_append]
      rw [constants] at hname
      rw [hname, Option.some_or]
    rw [hlong]
  | none =>
    rw [hname] at h
    rcases hsplit : splitMagnitude (Text.trim t) with ⟨number, power⟩
    rw [hsplit] at h
    dsimp only at h ⊢
    cases hnumeral : Numeral.ofText? number with
    | none =>
      rw [hnumeral] at h
      exact absurd rfl h
    | some numeral =>
      rw [hnumeral] at h
      have hcounted := Counted.of_magnified (splitMagnitude_eq_iff.1 hsplit) hnumeral
      rw [lookup_of_notMem_stop hcounted.notMem_stop]
      dsimp only at h ⊢
      cases hread : numeral.read with
      | error error => rfl
      | ok n =>
        rw [hread] at h
        have hshort : bits32.admits (n * Nat.pow 1024 power) = true := by
          by_contra hadmits
          exact h (congrArg Except.ok (if_neg hadmits))
        have hlong := admits_iff.2 (admits_iff.1 hshort).bits64
        exact congrArg Except.ok ((if_pos hlong).trans (if_pos hshort).symm)

/-- What a width answers a text that is `s` when it is trimmed: the bound that it names, else the
number that it counts where the width has room for it, and the default otherwise. -/
structure Answers (width : Width) (s : Text) (default : Value)
    (result : Except ValueError Value) : Prop where
  named : ∀ name n, (name, n) ∈ width.constants → sameName s name = true →
    result = .ok (.integer n)
  counted : ∀ n power, Counted s n power →
    result = .ok (if width.InRange (n * 1024 ^ power) then .integer (n * 1024 ^ power) else default)
  other : (∀ entry ∈ width.constants, sameName s entry.1 = false) →
    (∀ n power, ¬Counted s n power) → result = .ok default

end Width

namespace Kind

variable {registry : Registry} {width : Width} {t : Text} {default : Value}

lemma parse_integer_of_read {found : Option Int} (h : width.read t = .ok found) :
    parse registry (.integer width) (some t) default =
      .ok ((found.map Value.integer).getD default) := by
  rw [parse, read, h]
  rfl

lemma answers_integer (h : t.countP Text.isDigit ≤ Numeral.digitLimit) :
    width.Answers (Text.trim t) default (parse registry (.integer width) (some t) default) := by
  have hreads := width.reads t
  have hrefuses := width.not_refuses h
  refine ⟨fun name n hmem hname => ?_, fun n power hcounted => ?_, fun hnames hcounted => ?_⟩
  · have hdenotes : width.Denotes t n := .named (Width.lookup_of_sameName hmem hname)
    rw [parse_integer_of_read ((hreads.value n).2 hdenotes)]
    rfl
  · have hname := width.lookup_of_notMem_stop hcounted.notMem_stop
    obtain ⟨number, numeral, hmagnitude, hnumeral, rfl, hlength⟩ := hcounted.exists_magnified
    have hlegible : numeral.IsLegible :=
      hlength.trans ((Text.trim_sublist t).countP_le.trans h)
    split
    · rename_i hrange
      have hdenotes := Width.Denotes.counted hname hmagnitude hnumeral hlegible
        (Width.admits_iff.2 hrange)
      rw [parse_integer_of_read ((hreads.value _).2 hdenotes)]
      rfl
    · rename_i hrange
      have hread : width.read t = .ok none := hreads.nothing hrefuses fun n hdenotes => by
        rw [Width.denotes_iff_of_magnified hname hmagnitude] at hdenotes
        obtain ⟨_, hother, -, hadmits, -⟩ := hdenotes
        cases hnumeral.symm.trans hother
        exact hrange (Width.admits_iff.1 hadmits)
      rw [parse_integer_of_read hread]
      rfl
  · have hname := Width.lookup_eq_none hnames
    have hread : width.read t = .ok none := hreads.nothing hrefuses fun n hdenotes => by
      cases hdenotes with
      | named h =>
        rw [hname] at h
        cases h
      | counted _ hmagnitude hnumeral => exact hcounted _ _ (.of_magnified hmagnitude hnumeral)
    rw [parse_integer_of_read hread]
    rfl

/-- The answer is the default or an integer of the width. -/
lemma parse_integer_bounded (h : t.countP Text.isDigit ≤ Numeral.digitLimit) :
    parse registry (.integer width) (some t) default = .ok default ∨
      ∃ n, width.InRange n ∧
        parse registry (.integer width) (some t) default = .ok (.integer n) := by
  have hreads := width.reads t
  cases hread : width.read t with
  | error error => exact absurd (hreads.error.1 ⟨error, hread⟩) (Width.not_refuses h)
  | ok found =>
    cases found with
    | none => exact .inl (parse_integer_of_read hread)
    | some n => exact .inr ⟨n, ((hreads.value n).1 hread).inRange, parse_integer_of_read hread⟩

/-- An answer with 32 bits that no default changes is the answer with 64 bits. -/
lemma parse_bits64 {result : Except ValueError Value}
    (h : ∀ n : Int, parse registry (.integer .bits32) (some t) (.integer n) = result) :
    parse registry (.integer .bits64) (some t) default = result := by
  have hread : Width.bits32.read t ≠ .ok none := by
    intro hnone
    have hzero := h 0
    have hone := h 1
    rw [parse_integer_of_read hnone] at hzero hone
    cases hzero.trans hone.symm
  rw [← h 0, parse, parse, read, read, Width.read_bits64 hread]
  rcases hshort : Width.bits32.read t with error | _ | n
  · rfl
  · exact absurd hshort hread
  · rfl

/-- Integers are read exactly. A text of no more digits than are read is answered with the bound
that it names, else with the number that it counts where the width has room for it, and with the
default otherwise, so never with a number outside the width; every integer of a width is read back
from its decimal digits; and an answer with 32 bits that no default changes, an error included, is
the answer with 64 bits whatever the default. -/
theorem parse_integer_exact (registry : Registry) (t : Text) :
    (t.countP Text.isDigit ≤ Numeral.digitLimit → ∀ (width : Width) (default : Value),
      width.Answers (Text.trim t) default
        (parse registry (.integer width) (some t) default) ∧
      (parse registry (.integer width) (some t) default = .ok default ∨
        ∃ n, width.InRange n ∧
          parse registry (.integer width) (some t) default = .ok (.integer n))) ∧
    (∀ (width : Width) (n : Int) (default : Value), width.InRange n →
      parse registry (.integer width) (some (Text.ofInt n)) default = .ok (.integer n)) ∧
    (∀ result, (∀ n : Int,
      parse registry (.integer .bits32) (some t) (.integer n) = result) →
      ∀ default, parse registry (.integer .bits64) (some t) default = result) := by
  refine ⟨fun h width default => ⟨answers_integer h, parse_integer_bounded h⟩,
    fun width n default hrange => ?_, fun result h default => parse_bits64 h⟩
  have hdenotes := Width.denotes_ofInt (Width.admits_iff.2 hrange)
  exact parse_integer_of_read ((width.reads _).value n |>.2 hdenotes)

/-- The least integer of 32 bits is read from its digits and from a scaled number, and then it is
the answer with 64 bits as well. -/
theorem parse_leastInteger :
    ("-2097152 k".toList.countP Text.isDigit ≤ Numeral.digitLimit ∧
      parse {} (.integer .bits32) (some "-2097152 k".toList) (.integer 7) =
        .ok (.integer (-0x80000000))) ∧
    (Width.bits32.InRange (-0x80000000) ∧
      parse {} (.integer .bits32) (some (Text.ofInt (-0x80000000))) (.integer 7) =
        .ok (.integer (-0x80000000))) ∧
    parse {} (.integer .bits64) (some "-2097152 k".toList) .absent =
      .ok (.integer (-0x80000000)) := by
  obtain ⟨hexact, hwritten, hlong⟩ := parse_integer_exact {} "-2097152 k".toList
  have hcounted : Counted (Text.trim "-2097152 k".toList) (-2097152) 1 := by
    have hmagnitude : Magnified (Text.trim "-2097152 k".toList) "-2097152".toList 1 :=
      splitMagnitude_eq_iff.1 (by decide)
    have hnumeral : Numeral.ofText? "-2097152".toList =
        some ⟨true, [2, 0, 9, 7, 1, 5, 2]⟩ := by decide
    exact .of_magnified hmagnitude hnumeral
  have hshort (n : Int) : parse {} (.integer .bits32) (some "-2097152 k".toList) (.integer n) =
      .ok (.integer (-0x80000000)) :=
    (hexact (by decide) .bits32 (.integer n)).1.counted _ _ hcounted
  have hrange : Width.bits32.InRange (-0x80000000) := by decide
  exact ⟨⟨by decide, hshort 7⟩, ⟨hrange, hwritten .bits32 _ (.integer 7) hrange⟩,
    hlong _ hshort .absent⟩

/-- A number that reaches the bound of the width, and one with two suffixes. -/
example : parse {} (.integer .bits32) (some "2097152 k".toList) .absent = .ok .absent ∧
    parse {} (.integer .bits32) (some "1 k k".toList) .absent = .ok .absent := by
  decide +kernel

end Kind

end Keyfile
