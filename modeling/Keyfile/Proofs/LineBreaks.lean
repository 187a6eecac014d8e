import Keyfile.Proofs.Trimming
import Keyfile.Text.Lines

/-!
# Texts of several lines

The lines of a text hold no line breaks, and lines without line breaks are read back from the text
that they make. Making every carriage return a line feed changes no line.
-/

namespace Keyfile.Text

variable {c : Char} {line rest t : Text}

/-- No character of the text ends a line. -/
def Unbroken (t : Text) : Prop :=
  ∀ c ∈ t, isLineBreak c = false

instance (t : Text) : Decidable (Unbroken t) :=
  decidable_of_iff (t.all fun c => !isLineBreak c) (by simp [Unbroken])

/-- What ends a line in a value. -/
def crlf : Text := ['\r', '\n']

lemma isBlank_of_mem_crlf (h : c ∈ crlf) : isBlank c := by
  simp only [crlf, List.mem_cons, List.not_mem_nil, or_false] at h
  rcases h with rfl | rfl <;> rfl

lemma isLineBreak_of_isDigit (h : c.isDigit) : isLineBreak c = false := by
  simp only [Char.isDigit, Bool.and_eq_true, decide_eq_true_eq, ge_iff_le] at h
  have hlow : 0x30 ≤ c.toNat := h.1
  have hhigh : c.toNat ≤ 0x39 := h.2
  simp only [isLineBreak, Bool.or_eq_false_iff, Bool.and_eq_false_iff, decide_eq_false_iff_not,
    beq_eq_false_iff_ne]
  omega

lemma isBlank_of_isLineBreak (h : isLineBreak c) : isBlank c := by
  simp only [isLineBreak, Bool.or_eq_true, Bool.and_eq_true, decide_eq_true_eq, beq_iff_eq] at h
  simp only [isBlank, Bool.or_eq_true, Bool.and_eq_true, decide_eq_true_eq, beq_iff_eq]
  omega

lemma lines_cons_of_break (hc : isLineBreak c) (h : c = '\r' → rest.head? ≠ some '\n') :
    lines (c :: rest) = [] :: lines rest := by
  rw [lines]
  · rw [if_pos hc]
  · rintro tail rfl rfl
    exact h rfl rfl

lemma lines_cons_of_solid (hc : isLineBreak c = false) (rest : Text) :
    lines (c :: rest) =
      match lines rest with
      | [] => [[c]]
      | line :: others => (c :: line) :: others := by
  rw [lines]
  · exact if_neg (by simp [hc])
  · rintro tail rfl -
    simp [isLineBreak] at hc

lemma unbroken_of_mem_lines (h : line ∈ lines t) : Unbroken line := by
  fun_induction lines t generalizing line with
  | case1 => cases h
  | case2 rest ih =>
    rcases List.mem_cons.1 h with rfl | h
    · simp [Unbroken]
    · exact ih h
  | case3 c rest _ hc ih =>
    rcases List.mem_cons.1 h with rfl | h
    · simp [Unbroken]
    · exact ih h
  | case4 c rest _ hc hnil ih =>
    obtain rfl := List.mem_singleton.1 h
    simpa [Unbroken] using hc
  | case5 c rest _ hc first others hcons ih =>
    rw [hcons] at ih
    rcases List.mem_cons.1 h with rfl | h
    · have hfirst : Unbroken first := ih List.mem_cons_self
      simpa [Unbroken, hc] using hfirst
    · exact ih (List.mem_cons_of_mem _ h)

lemma lines_append_newline (h : Unbroken line) (rest : Text) :
    lines (line ++ '\n' :: rest) = line :: lines rest := by
  induction line with
  | nil => exact lines_cons_of_break rfl (by simp)
  | cons c line ih =>
    obtain ⟨hc, hline⟩ := List.forall_mem_cons.1 h
    rw [List.cons_append, lines_cons_of_solid hc, ih hline]

lemma lines_append_crlf (h : Unbroken line) (rest : Text) :
    lines (line ++ crlf ++ rest) = line :: lines rest := by
  induction line with
  | nil => rfl
  | cons c line ih =>
    obtain ⟨hc, hline⟩ := List.forall_mem_cons.1 h
    rw [List.cons_append, List.cons_append, lines_cons_of_solid hc, ih hline]

lemma lines_of_unbroken (h : Unbroken line) (hne : line ≠ []) : lines line = [line] := by
  induction line with
  | nil => exact absurd rfl hne
  | cons c line ih =>
    obtain ⟨hc, hline⟩ := List.forall_mem_cons.1 h
    rw [lines_cons_of_solid hc]
    cases line with
    | nil => rfl
    | cons d line => rw [ih hline (by simp)]

lemma join_cons_cons (separator : Text) (first second : Text) (others : List Text) :
    join separator (first :: second :: others) =
      first ++ separator ++ join separator (second :: others) := rfl

lemma mem_join (separator : Text) {parts : List Text} {part : Text} {c : Char}
    (hpart : part ∈ parts) (hc : c ∈ part) : c ∈ join separator parts := by
  induction parts with
  | nil => cases hpart
  | cons first others ih =>
    cases others with
    | nil =>
      obtain rfl := List.mem_singleton.1 hpart
      exact hc
    | cons second others =>
      rw [join_cons_cons]
      rcases List.mem_cons.1 hpart with rfl | hpart
      · simp [hc]
      · simp [ih hpart]

/-- Lines of which the last is not empty are read back from the text that they make. -/
lemma lines_join_crlf {parts : List Text} (h : ∀ part ∈ parts, Unbroken part)
    (hlast : parts.getLast? ≠ some []) : lines (join crlf parts) = parts := by
  induction parts with
  | nil => rfl
  | cons part parts ih =>
    obtain ⟨hpart, hparts⟩ := List.forall_mem_cons.1 h
    cases parts with
    | nil =>
      have hne : part ≠ [] := by simpa using hlast
      exact lines_of_unbroken hpart hne
    | cons second others =>
      rw [join_cons_cons, lines_append_crlf hpart, ih hparts (by simpa using hlast)]

/-- Lines without line breaks are read back from the text in which each is followed by a line
feed. -/
lemma lines_join_newline {parts : List Text} (hne : parts ≠ [])
    (h : ∀ part ∈ parts, Unbroken part) : lines (join ['\n'] parts ++ ['\n']) = parts := by
  induction parts with
  | nil => exact absurd rfl hne
  | cons part parts ih =>
    obtain ⟨hpart, hparts⟩ := List.forall_mem_cons.1 h
    cases parts with
    | nil => exact lines_append_newline hpart []
    | cons second others =>
      rw [join_cons_cons, List.append_assoc, List.append_assoc, List.singleton_append,
        lines_append_newline hpart, ih (by simp) hparts]

/-- Reading a text from a file changes none of its lines. -/
theorem lines_normalizeNewlines (t : Text) : lines (normalizeNewlines t) = lines t := by
  fun_induction normalizeNewlines t with
  | case1 => rfl
  | case2 rest ih =>
    rw [lines_cons_of_break rfl (by simp), ih]
    rfl
  | case3 c rest hcrlf ih =>
    by_cases hreturn : c = '\r'
    · subst hreturn
      have hhead : rest.head? ≠ some '\n' := by
        intro hhead
        obtain ⟨tail, rfl⟩ := List.head?_eq_some_iff.1 hhead
        exact hcrlf tail rfl rfl
      rw [if_pos rfl, lines_cons_of_break rfl (by simp), ih,
        lines_cons_of_break rfl fun _ => hhead]
    · rw [if_neg hreturn]
      cases hc : isLineBreak c with
      | true =>
        rw [lines_cons_of_break hc fun heq => absurd heq hreturn,
          lines_cons_of_break hc fun heq => absurd heq hreturn, ih]
      | false => rw [lines_cons_of_solid hc, lines_cons_of_solid hc, ih]

lemma trimStart_crlf_append (t : Text) : trimStart (crlf ++ t) = trimStart t := rfl

lemma trimEnd_append_crlf (t : Text) : trimEnd (t ++ crlf) = trimEnd t :=
  trimEnd_append_blank (fun _ hc => isBlank_of_mem_crlf hc) t

lemma exists_trimStart_join {parts : List Text} (h : ∀ part ∈ parts, trim part = part) :
    ∃ kept, kept <:+ parts ∧ trimStart (join crlf parts) = join crlf kept := by
  induction parts with
  | nil => exact ⟨[], List.suffix_rfl, rfl⟩
  | cons part parts ih =>
    obtain ⟨hpart, hparts⟩ := List.forall_mem_cons.1 h
    cases part with
    | nil =>
      obtain ⟨kept, hkept, hjoin⟩ := ih hparts
      refine ⟨kept, hkept.trans (List.suffix_cons _ _), ?_⟩
      cases parts with
      | nil => simpa [join] using hjoin
      | cons second others => rw [join_cons_cons, List.nil_append, trimStart_crlf_append, hjoin]
    | cons c rest =>
      refine ⟨(c :: rest) :: parts, List.suffix_rfl, ?_⟩
      have hc := isBlank_of_trim_eq_cons hpart
      have hjoin : ∃ tail, join crlf ((c :: rest) :: parts) = c :: tail := by
        cases parts with
        | nil => exact ⟨rest, rfl⟩
        | cons second others => exact ⟨_, rfl⟩
      obtain ⟨tail, hjoin⟩ := hjoin
      rw [hjoin, trimStart, List.dropWhile_cons_of_neg (by simp [hc])]

lemma join_append_singleton {parts : List Text} (hne : parts ≠ []) (last : Text) :
    join crlf (parts ++ [last]) = join crlf parts ++ crlf ++ last := by
  induction parts with
  | nil => exact absurd rfl hne
  | cons part parts ih =>
    cases parts with
    | nil => rfl
    | cons second others =>
      have ih := ih (by simp)
      rw [List.cons_append] at ih
      rw [List.cons_append, List.cons_append, join_cons_cons, ih, join_cons_cons]
      simp

lemma exists_trimEnd_join {parts : List Text} (h : ∀ part ∈ parts, trim part = part) :
    ∃ kept, kept <+: parts ∧ kept.getLast? ≠ some [] ∧
      trimEnd (join crlf parts) = join crlf kept := by
  induction parts using List.reverseRecOn with
  | nil => exact ⟨[], List.prefix_rfl, by simp, rfl⟩
  | append_singleton parts last ih =>
    obtain ⟨hparts, hlast⟩ := List.forall_mem_append.1 h
    have hlast : trim last = last := hlast last (List.mem_singleton_self last)
    by_cases hempty : last = []
    · subst hempty
      obtain ⟨kept, hkept, hend, hjoin⟩ := ih hparts
      refine ⟨kept, hkept.trans (List.prefix_append _ _), hend, ?_⟩
      by_cases hne : parts = []
      · subst hne
        simpa [join] using hjoin
      · rw [join_append_singleton hne, List.append_nil, trimEnd_append_crlf, hjoin]
    · refine ⟨parts ++ [last], List.prefix_rfl, by simpa using hempty, ?_⟩
      have hfull := trimEnd_append_of_trim hlast hempty
      by_cases hne : parts = []
      · subst hne
        exact hfull []
      · rw [join_append_singleton hne, hfull]

/-- Trimming a text of trimmed lines leaves some of its lines. -/
lemma exists_trim_join {parts : List Text} (h : ∀ part ∈ parts, trim part = part) :
    ∃ kept, kept <:+: parts ∧ kept.getLast? ≠ some [] ∧
      trim (join crlf parts) = join crlf kept := by
  obtain ⟨middle, hmiddle, hstart⟩ := exists_trimStart_join h
  obtain ⟨kept, hkept, hlast, hend⟩ :=
    exists_trimEnd_join fun part hpart => h part (hmiddle.subset hpart)
  exact ⟨kept, hkept.isInfix.trans hmiddle.isInfix, hlast, by rw [trim, hstart, hend]⟩

end Keyfile.Text
