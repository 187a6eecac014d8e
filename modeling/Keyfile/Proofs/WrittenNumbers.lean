import Keyfile.Proofs.Denotation

/-!
# Numbers read from their digits

The decimal and the hexadecimal digits of a number are read as that number again. So an integer of a
width, whatever its sign, and octets are read back from the texts that are written for them.
-/

namespace Keyfile

lemma mapM_of_forall {α : Type} {read : Text → Option α} {write : α → Text} {values : List α}
    (h : ∀ value ∈ values, read (write value) = some value) :
    (values.map write).mapM read = some values := by
  induction values with
  | nil => rfl
  | cons value values ih =>
    obtain ⟨hvalue, hvalues⟩ := List.forall_mem_cons.1 h
    rw [List.map_cons, List.mapM_cons, hvalue, ih hvalues]
    rfl

lemma mapM_eq_none {α β : Type} {read : α → Option β} {values : List α} {value : α}
    (hmem : value ∈ values) (h : read value = none) : values.mapM read = none := by
  induction values with
  | nil => cases hmem
  | cons first values ih =>
    rw [List.mapM_cons]
    rcases List.mem_cons.1 hmem with rfl | hvalues
    · rw [h]
      rfl
    · rw [ih hvalues]
      cases read first <;> rfl

section Digits

variable {base n : Nat} {value? : Char → Option Nat}

/-- Whatever reads the digits of a base reads the digits of a number as digits of the number. -/
lemma exists_mapM_toDigits (hbase : 1 < base) (hdigit : ∀ d < base, value? d.digitChar = some d)
    (n : Nat) : ∃ digits, (Nat.toDigits base n).mapM value? = some digits ∧
      digits.foldl (fun total digit => base * total + digit) 0 = n := by
  induction n using Nat.strongRecOn with
  | ind n ih =>
    rcases Nat.lt_or_ge n base with hlt | hge
    · refine ⟨[n], ?_, by simp⟩
      rw [Nat.toDigits_of_lt_base hlt]
      simp [hdigit n hlt]
    · obtain ⟨digits, hdigits, hvalue⟩ := ih (n / base) (Nat.div_lt_self (by omega) hbase)
      refine ⟨digits ++ [n % base], ?_, ?_⟩
      · rw [Nat.toDigits_of_base_le hbase hge, List.mapM_append, hdigits]
        simp [hdigit (n % base) (Nat.mod_lt n (by omega))]
      · rw [List.foldl_append, hvalue]
        exact Nat.div_add_mod n base

lemma length_of_mapM {t : Text} {digits : List Nat} (h : t.mapM value? = some digits) :
    digits.length = t.length := by
  induction t generalizing digits with
  | nil =>
    cases h
    rfl
  | cons c rest ih =>
    simp only [List.mapM_cons, Option.bind_eq_bind, Option.bind_eq_some_iff, Option.pure_def,
      Option.some_inj] at h
    obtain ⟨digit, -, others, hothers, rfl⟩ := h
    rw [List.length_cons, List.length_cons, ih hothers]

end Digits

namespace Text

lemma isBlank_of_isDigit {c : Char} (h : c.isDigit) : isBlank c = false := by
  simp only [Char.isDigit, Bool.and_eq_true, decide_eq_true_eq, ge_iff_le] at h
  have hlow : 0x30 ≤ c.toNat := h.1
  have hhigh : c.toNat ≤ 0x39 := h.2
  simp only [isBlank, Bool.or_eq_false_iff, Bool.and_eq_false_iff, decide_eq_false_iff_not,
    beq_eq_false_iff_ne, ne_eq]
  omega

/-- A text with a blank at neither end is its own trimmed text. -/
lemma trim_eq_self {t : Text} (hfirst : ∀ c ∈ t.head?, isBlank c = false)
    (hlast : ∀ c ∈ t.getLast?, isBlank c = false) : trim t = t := by
  have hstart : trimStart t = t := by
    cases t with
    | nil => rfl
    | cons c rest => exact List.dropWhile_cons_of_neg (by simp [hfirst c rfl])
  rw [trim, hstart, trimEnd_eq_self_iff.2 hlast]

lemma digitValue?_digitChar : ∀ d < 10, digitValue? (Nat.digitChar d) = some d := by
  decide

/-- The digits of a number are read as the number. -/
lemma exists_digits?_ofNat (n : Nat) :
    ∃ digits, digits? (ofNat n) = some digits ∧ natOfDigits digits = n :=
  exists_mapM_toDigits (by decide) digitValue?_digitChar n

/-- Only the digits of zero begin with a zero. -/
lemma head?_ofNat {n : Nat} (h : 0 < n) : (ofNat n).head? ≠ some '0' := by
  have hchar : ∀ d < 10, 0 < d → Nat.digitChar d ≠ '0' := by decide
  rw [ofNat]
  induction n using Nat.strongRecOn with
  | ind n ih =>
    rcases Nat.lt_or_ge n 10 with hlt | hge
    · rw [Nat.toDigits_of_lt_base hlt, List.head?_cons]
      exact fun heq => hchar n hlt h (Option.some.inj heq)
    · rw [Nat.toDigits_of_base_le (by decide) hge, List.head?_append_of_ne_nil _ Nat.toDigits_ne_nil]
      exact ih (n / 10) (Nat.div_lt_self h (by decide)) (Nat.div_pos hge (by decide))

lemma ofInt_eq (n : Int) :
    ofInt n = if n < 0 then '-' :: ofNat n.natAbs else ofNat n.natAbs := by
  cases n with
  | ofNat n =>
    rw [if_neg (by simp)]
    rfl
  | negSucc n =>
    rw [if_pos (Int.negSucc_lt_zero n)]
    rfl

/-- Where an integer is written there are digits, and a minus sign at most in front of them. -/
lemma eq_minus_or_isDigit_of_mem_ofInt {n : Int} {c : Char} (h : c ∈ ofInt n) :
    c = '-' ∨ c.isDigit = true := by
  rw [ofInt_eq] at h
  split at h
  · exact (List.mem_cons.1 h).imp_right isDigit_of_mem_ofNat
  · exact .inr (isDigit_of_mem_ofNat h)

lemma isDigit_of_mem_getLast?_ofInt {n : Int} {c : Char} (h : c ∈ (ofInt n).getLast?) :
    c.isDigit = true := by
  rw [ofInt_eq] at h
  split at h
  · rw [List.getLast?_cons_of_ne_nil (ofNat_ne_nil _)] at h
    exact isDigit_of_mem_ofNat (List.mem_of_mem_getLast? h)
  · exact isDigit_of_mem_ofNat (List.mem_of_mem_getLast? h)

lemma trim_ofInt (n : Int) : trim (ofInt n) = ofInt n := by
  refine trim_eq_self (fun c hc => ?_) fun c hc => ?_
  · rcases eq_minus_or_isDigit_of_mem_ofInt (List.mem_of_mem_head? hc) with rfl | hdigit
    · decide
    · exact isBlank_of_isDigit hdigit
  · exact isBlank_of_isDigit (isDigit_of_mem_getLast?_ofInt hc)

end Text

namespace Numeral

lemma ofText?_of_unsigned {t : Text} (hne : t ≠ []) (hminus : '-' ∉ t) (hplus : '+' ∉ t) :
    ofText? t = (Text.digits? t).map (⟨false, ·⟩) := by
  unfold ofText?
  split
  rename_i hparts
  split at hparts
  · exact absurd List.mem_cons_self hminus
  · exact absurd List.mem_cons_self hplus
  · cases hparts
    rw [if_neg hne]

/-- An integer is written as a numeral of its own value, with the digits of its magnitude. -/
lemma exists_ofText?_ofInt (n : Int) : ∃ numeral, ofText? (Text.ofInt n) = some numeral ∧
    numeral.value = n ∧ numeral.digits.length = (Text.ofNat n.natAbs).length := by
  obtain ⟨digits, hdigits, hvalue⟩ := Text.exists_digits?_ofNat n.natAbs
  have hlength := length_of_mapM hdigits
  rw [Text.ofInt_eq]
  split
  · rename_i hnegative
    refine ⟨⟨true, digits⟩, ?_, ?_, hlength⟩
    · rw [ofText?]
      simp [Text.ofNat_ne_nil, hdigits]
    · rw [value, magnitude, if_pos rfl, hvalue]
      omega
  · rename_i hpositive
    refine ⟨⟨false, digits⟩, ?_, ?_, hlength⟩
    · rw [ofText?_of_unsigned (Text.ofNat_ne_nil _) (Text.notMem_ofNat (by decide) _)
        (Text.notMem_ofNat (by decide) _), hdigits, Option.map_some]
    · rw [value, magnitude, hvalue]
      simp
      omega

end Numeral

namespace Width

lemma magnitudePower?_of_isDigit {c : Char} (h : c.isDigit) : magnitudePower? c = none := by
  have hlower : Text.lower [c] = [c] :=
    Text.lowerAfter_of_steady (List.forall_mem_singleton.2 (Text.steady_of_isDigit h)) []
  rw [magnitudePower?, hlower]
  split
  all_goals first | rfl | (rename_i heq; cases heq; cases h)

/-- Every bound has a letter in its name. -/
lemma mem_of_mem_constants : ∀ width : Width, ∀ entry ∈ width.constants, 'm' ∈ entry.1 := by
  rintro (_ | _) <;> decide

lemma lookup_ofInt (width : Width) (n : Int) :
    width.constants.lookup (Text.lower (Text.ofInt n)) = none := by
  have hsteady : ∀ c ∈ Text.ofInt n, Text.Steady c := fun c hc => by
    rcases Text.eq_minus_or_isDigit_of_mem_ofInt hc with rfl | hdigit
    · decide
    · exact Text.steady_of_isDigit hdigit
  rw [Text.lower, Text.lowerAfter_of_steady hsteady, List.lookup_eq_none_iff]
  intro entry hentry
  rw [bne_iff_ne]
  intro heq
  have hletter := mem_of_mem_constants width entry hentry
  rw [← heq] at hletter
  rcases Text.eq_minus_or_isDigit_of_mem_ofInt hletter with hminus | hdigit
  · exact absurd hminus (by decide)
  · exact absurd hdigit (by decide)

lemma natAbs_lt_of_admits {width : Width} {n : Int} (h : width.admits n) : n.natAbs < 10 ^ 19 := by
  simp only [admits, Bool.and_eq_true, decide_eq_true_eq] at h
  cases width <;> simp only [bound] at h <;> omega

/-- An integer that a width admits is denoted by the text that is written for it. -/
lemma denotes_ofInt {width : Width} {n : Int} (h : width.admits n) :
    width.Denotes (Text.ofInt n) n := by
  obtain ⟨numeral, hnumeral, hvalue, hlength⟩ := Numeral.exists_ofText?_ofInt n
  have hlegible : numeral.IsLegible := by
    have hshort := (Nat.length_toDigits_le_iff (by decide) (by decide)).2 (natAbs_lt_of_admits h)
    rw [Numeral.IsLegible, hlength]
    exact hshort.trans (by decide)
  have hmagnitude : Magnified (Text.trim (Text.ofInt n)) (Text.ofInt n) 0 := by
    rw [Text.trim_ofInt]
    exact .plain fun c hc => magnitudePower?_of_isDigit (Text.isDigit_of_mem_getLast?_ofInt hc)
  have hname : width.constants.lookup (Text.lower (Text.trim (Text.ofInt n))) = none := by
    rw [Text.trim_ofInt, lookup_ofInt]
  have hscaled : numeral.value * 1024 ^ 0 = n := by
    rw [hvalue, Int.pow_zero, Int.mul_one]
  have hdenotes := Denotes.counted hname hmagnitude hnumeral hlegible (hscaled.symm ▸ h)
  rwa [hscaled] at hdenotes

end Width

namespace Text

lemma hexValue?_digitChar : ∀ d < 16, hexValue? (Nat.digitChar d) = some d := by
  decide

/-- The hexadecimal digits of a number are read as the number, whatever the zeros in front. -/
lemma exists_hexValues (width n : Nat) :
    ∃ digits, (hexDigits width n).mapM hexValue? = some digits ∧ natOfHexDigits digits = n := by
  obtain ⟨digits, hdigits, hvalue⟩ := exists_mapM_toDigits (by decide) hexValue?_digitChar n
  have hzeros (count : Nat) :
      (List.replicate count '0').mapM hexValue? = some (List.replicate count 0) := by
    induction count with
    | zero => rfl
    | succ count ih =>
      rw [List.replicate_succ, List.mapM_cons, ih]
      rfl
  have hskip (count : Nat) :
      (List.replicate count 0).foldl (fun total digit => 16 * total + digit) 0 = 0 := by
    induction count with
    | zero => rfl
    | succ count ih => rw [List.replicate_succ, List.foldl_cons, Nat.mul_zero, ih]
  refine ⟨List.replicate (width - (Nat.toDigits 16 n).length) 0 ++ digits, ?_, ?_⟩
  · rw [hexDigits, List.mapM_append, hzeros, hdigits]
    rfl
  · rw [natOfHexDigits, List.foldl_append, hskip, hvalue]

lemma hexValue?_of_mem_hexDigits {width n : Nat} {c : Char} (h : c ∈ hexDigits width n) :
    hexValue? c ≠ none := by
  intro hnone
  obtain ⟨digits, hdigits, -⟩ := exists_hexValues width n
  rw [mapM_eq_none h hnone] at hdigits
  cases hdigits

end Text

namespace Octets

/-- An octet is written with the digits of its two halves. -/
lemma hexDigits_octet {n : Nat} (h : n < 256) :
    Text.hexDigits 2 n = [Nat.digitChar (n / 16), Nat.digitChar (n % 16)] := by
  rw [Text.hexDigits]
  rcases Nat.lt_or_ge n 16 with hlt | hge
  · rw [Nat.toDigits_of_lt_base hlt, Nat.div_eq_of_lt hlt, Nat.mod_eq_of_lt hlt]
    rfl
  · have hhigh : n / 16 < 16 := by omega
    rw [Nat.toDigits_of_base_le (by decide) hge, Nat.toDigits_of_lt_base hhigh]
    rfl

lemma isSeparator_digitChar : ∀ d < 16, isSeparator (Nat.digitChar d) = false := by
  decide

lemma ofText?_octet (octet : UInt8) (rest : Text) :
    ofText? (Text.hexDigits 2 octet.toNat ++ rest) = (ofText? rest).map (octet :: ·) := by
  have hlt : octet.toNat < 256 := octet.toNat_lt
  have hhigh : octet.toNat / 16 < 16 := by omega
  have hlow : octet.toNat % 16 < 16 := Nat.mod_lt _ (by decide)
  rw [hexDigits_octet hlt, List.cons_append, List.cons_append, List.nil_append, ofText?,
    isSeparator_digitChar _ hhigh, Text.hexValue?_digitChar _ hhigh,
    Text.hexValue?_digitChar _ hlow]
  simp only [Bool.false_eq_true, if_false, Option.bind_eq_bind, Option.bind_some, Nat.div_add_mod,
    UInt8.ofNat_toNat]
  cases ofText? rest <;> rfl

/-- Octets are read back from their digits. -/
theorem ofText?_text (octets : Octets) : ofText? (text octets) = some octets := by
  induction octets with
  | nil => rfl
  | cons octet rest ih =>
    rw [text] at ih ⊢
    rw [List.flatMap_cons, ofText?_octet, ih, Option.map_some]

end Octets

end Keyfile
