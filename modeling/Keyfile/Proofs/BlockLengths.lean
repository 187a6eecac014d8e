import Keyfile.Proofs.SavedForm

/-!
# Lengths of values

A value that is read from some lines is shorter than the text that the lines make, since the line
that begins its entry holds an equals sign as well. So no value can be read from its own lines.
-/

namespace Keyfile

open Text

/-- How much a line can add to a value: its characters and a line break. The line that closes a
block adds nothing. -/
def lineWeight (line : Text) : Nat :=
  if trim line = blockEnd then 0 else line.length + 2

lemma lineWeight_of_ne {line : Text} (h : trim line ≠ blockEnd) :
    lineWeight line = line.length + 2 := by
  rw [lineWeight, if_neg h]

lemma length_join_crlf {parts : List Text} (hne : parts ≠ []) :
    (join crlf parts).length + 2 = (parts.map fun part => part.length + 2).sum := by
  induction parts with
  | nil => exact absurd rfl hne
  | cons first rest ih =>
    cases rest with
    | nil => simp [join]
    | cons second others =>
      rw [join_cons_cons, List.map_cons, List.sum_cons, ← ih (by simp)]
      simp only [List.length_append, crlf, List.length_cons, List.length_nil]
      omega

lemma length_join_crlf_le (parts : List Text) :
    (join crlf parts).length ≤ (parts.map fun part => part.length + 2).sum := by
  by_cases hne : parts = []
  · simp [hne, join]
  · have hlength := length_join_crlf hne
    omega

lemma length_of_cutAt {mark : Char} {t before after : Text}
    (h : cutAt mark t = some (before, after)) : before.length + after.length + 1 = t.length := by
  obtain ⟨rfl, -⟩ := cutAt_eq_some_iff.1 h
  simp [Nat.add_assoc]

namespace Statement

/-- A line with an equals sign does not close a block exactly. -/
lemma ne_blockEnd_of_cutAt {line before after : Text}
    (h : cutAt '=' line = some (before, after)) : line ≠ blockEnd := by
  rintro rfl
  cases h

/-- The value of an entry leaves out the equals sign of its line. -/
lemma length_of_ofText_entry {line key value : Text}
    (h : Line.ofText (trim line) = .statement (.entry key value)) :
    value.length + 3 ≤ lineWeight line := by
  obtain ⟨before, after, hcut, -, rfl, -⟩ := Line.cutAt_of_ofText_entry h
  have hlength := length_of_cutAt hcut
  have htrim := length_trim_le line
  have hvalue := length_trim_le after
  rw [lineWeight_of_ne (ne_blockEnd_of_cutAt hcut)]
  omega

/-- What stands on the line that opens a value leaves out the equals sign and the opening. -/
lemma length_of_ofText_opening {line key first : Text}
    (h : Line.ofText (trim line) = .opening key first) : first.length + 5 ≤ lineWeight line := by
  rcases Line.ofText_cases (trim line) with hnothing | ⟨afterSign, -, hline⟩ |
    ⟨before, after, -, -, hcut, hline⟩
  · rw [hnothing] at h
    cases h
  · rw [hline] at h
    cases h
  · rw [hline, Line.ofParts] at h
    split at h
    · rename_i hopen
      cases h
      have hlength := length_of_cutAt hcut
      have htrim := length_trim_le line
      have hvalue := length_trim_le after
      have hstart := (List.isPrefixOf_iff_prefix.1 hopen).length_le
      have hfirst := length_trim_le ((trim after).drop blockStart.length)
      rw [List.length_drop] at hfirst
      rw [lineWeight_of_ne (ne_blockEnd_of_cutAt hcut)]
      simp only [blockStart, List.length_cons, List.length_nil] at hstart hfirst ⊢
      omega
    · cases h

end Statement

/-- How long a value can become by the lines that it has so far; without an open value a line that
begins one has to come first. -/
def openWeight (state : Option OpenValue) : Nat :=
  state.elim 0 fun value => (value.parts.map fun part => part.length + 2).sum + 3

/-- Trimming a value of several lines adds nothing to its lines. -/
lemma length_of_eq_close {openValue : OpenValue} {line : Nat} {key value : Text}
    (h : (line, Statement.entry key value) = openValue.close) :
    value.length + 3 ≤ openWeight (some openValue) := by
  obtain ⟨openKey, number, parts⟩ := openValue
  obtain ⟨-, heq⟩ := Prod.mk.inj h
  obtain ⟨-, rfl⟩ := Statement.entry.inj heq
  have htrim := length_trim_le (join ['\r', '\n'] parts)
  have hjoin := length_join_crlf_le parts
  rw [crlf] at hjoin
  simp only [openWeight, Option.elim_some]
  omega

/-- No value that is gathered is as long as its lines. -/
lemma length_of_mem_gather {state : Option OpenValue} {number line : Nat} {texts : List Text}
    {key value : Text} (h : (line, .entry key value) ∈ gather state number texts) :
    value.length + 3 ≤ openWeight state + (texts.map lineWeight).sum := by
  fun_induction gather state number texts with
  | case1 => cases h
  | case2 openValue number =>
    have hle := length_of_eq_close (List.mem_singleton.1 h)
    simpa using hle
  | case3 openValue number text rest trimmed hend ih =>
    rcases List.mem_cons.1 h with h | h
    · have hle := length_of_eq_close h
      simp only [List.map_cons, List.sum_cons]
      omega
    · have hle := ih h
      simp only [openWeight, Option.elim_none, List.map_cons, List.sum_cons] at hle ⊢
      omega
  | case4 openValue number text rest trimmed hinside ih =>
    have hle := ih h
    have hne : trim text ≠ blockEnd := by
      intro heq
      apply hinside
      rw [show trimmed = trim text from rfl, heq]
      rfl
    have hlength := length_trim_le text
    have hweight := lineWeight_of_ne hne
    simp only [openWeight, Option.elim_some, List.map_append, List.map_cons, List.map_nil,
      List.sum_append, List.sum_cons, List.sum_nil] at hle ⊢
    have htrimmed : trimmed.length = (trim text).length := rfl
    omega
  | case5 number text rest hnothing ih =>
    have hle := ih h
    simp only [openWeight, Option.elim_none, List.map_cons, List.sum_cons] at hle ⊢
    omega
  | case6 number text rest statement hsaying ih =>
    rcases List.mem_cons.1 h with h | h
    · obtain ⟨-, rfl⟩ := Prod.mk.inj h
      have hle := Statement.length_of_ofText_entry hsaying
      simp only [List.map_cons, List.sum_cons]
      omega
    · have hle := ih h
      simp only [openWeight, Option.elim_none, List.map_cons, List.sum_cons] at hle ⊢
      omega
  | case7 number text rest openKey first hopens ih =>
    have hle := ih h
    have hfirst := Statement.length_of_ofText_opening hopens
    have hopened : openWeight (some (OpenValue.opened number openKey first)) ≤ first.length + 5 := by
      rw [openWeight, OpenValue.opened]
      split <;> simp
    simp only [List.map_cons, List.sum_cons]
    omega

end Keyfile
