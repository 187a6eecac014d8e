import Keyfile.Text.Blank
import Mathlib.Data.List.DropRight

/-!
# Trimming and cutting

Trimming drops the blanks at both ends of a text and nothing else: blanks put around a text are
trimmed away, and a character that is not blank keeps all that stands between it and the next one.
Cutting a text at a mark gives the parts around the first one.
-/

namespace Keyfile.Text

variable {c : Char} {s t blanks word : Text}

lemma suffix_trimStart (t : Text) : trimStart t <:+ t :=
  List.dropWhile_suffix isBlank

lemma prefix_trimEnd (t : Text) : trimEnd t <+: t :=
  List.rdropWhile_prefix isBlank t

lemma trimStart_append_cons (hc : isBlank c = false) (s t : Text) :
    trimStart (s ++ c :: t) = trimStart s ++ c :: t := by
  induction s with
  | nil => simp [trimStart, hc]
  | cons d s ih =>
    simp only [trimStart, List.cons_append, List.dropWhile_cons] at ih ⊢
    cases isBlank d with
    | true => simpa using ih
    | false => simp

lemma trimEnd_append_cons (hc : isBlank c = false) (s t : Text) :
    trimEnd (s ++ c :: t) = s ++ c :: trimEnd t := by
  have h := trimStart_append_cons hc t.reverse s.reverse
  simp only [trimStart] at h
  simp [trimEnd, dropTail, h]

/-- A character that is not blank separates the trimming at both ends. -/
lemma trim_append_cons (hc : isBlank c = false) (s t : Text) :
    trim (s ++ c :: t) = trimStart s ++ c :: trimEnd t := by
  rw [trim, trimStart_append_cons hc, trimEnd_append_cons hc]

lemma trimStart_of_blank (h : ∀ c ∈ blanks, isBlank c) : trimStart blanks = [] :=
  List.dropWhile_eq_nil_iff.2 h

/-- A text is blank or has a first character that is not. -/
lemma blank_or_eq_append_cons (t : Text) :
    (∀ c ∈ t, isBlank c) ∨ ∃ blanks c rest, t = blanks ++ c :: rest ∧
      (∀ c ∈ blanks, isBlank c) ∧ isBlank c = false ∧ trimStart t = c :: rest := by
  cases h : trimStart t with
  | nil => exact .inl (List.dropWhile_eq_nil_iff.1 h)
  | cons c rest =>
    have hc : isBlank c = false := by
      have hhead := List.head?_dropWhile_not isBlank t
      rw [trimStart] at h
      simpa [h] using hhead
    refine .inr ⟨t.takeWhile isBlank, c, rest, ?_, ?_, hc, rfl⟩
    · rw [← h, trimStart, List.takeWhile_append_dropWhile]
    · exact fun c hc => List.mem_takeWhile_imp hc

lemma trimEnd_append_blank (h : ∀ c ∈ blanks, isBlank c) (t : Text) :
    trimEnd (t ++ blanks) = trimEnd t := by
  have hreverse : ∀ c ∈ blanks.reverse, isBlank c := by simpa using h
  simp [trimEnd, dropTail, List.dropWhile_append_of_pos hreverse]

lemma trim_append_blank (h : ∀ c ∈ blanks, isBlank c) (t : Text) :
    trim (t ++ blanks) = trim t := by
  rcases blank_or_eq_append_cons t with ht | ⟨first, c, rest, rfl, -, hc, -⟩
  · have hboth : ∀ c ∈ t ++ blanks, isBlank c := List.forall_mem_append.2 ⟨ht, h⟩
    rw [trim, trim, trimStart_of_blank hboth, trimStart_of_blank ht]
  · rw [List.append_assoc, List.cons_append, trim_append_cons hc, trim_append_cons hc,
      trimEnd_append_blank h]

lemma trim_trimStart (t : Text) : trim (trimStart t) = trim t := by
  rw [trim, trim, trimStart, trimStart, List.dropWhile_idempotent]

lemma exists_trimEnd_append (t : Text) :
    ∃ blanks, t = trimEnd t ++ blanks ∧ ∀ c ∈ blanks, isBlank c :=
  ⟨t.rtakeWhile isBlank, List.rdropWhile_append_rtakeWhile.symm,
    fun _ hc => List.mem_rtakeWhile_imp hc⟩

lemma trim_trimEnd (t : Text) : trim (trimEnd t) = trim t := by
  obtain ⟨blanks, ht, hblanks⟩ := exists_trimEnd_append t
  conv_rhs => rw [ht]
  rw [trim_append_blank hblanks]

@[simp]
lemma trim_trim (t : Text) : trim (trim t) = trim t :=
  (trim_trimEnd (trimStart t)).trans (trim_trimStart t)

lemma mem_of_mem_trim (h : c ∈ trim t) : c ∈ t :=
  (suffix_trimStart t).subset ((prefix_trimEnd _).subset h)

lemma mem_trim (hc : isBlank c = false) (h : c ∈ t) : c ∈ trim t := by
  obtain ⟨before, after, rfl⟩ := List.append_of_mem h
  simp [trim_append_cons hc]

/-- What stands between characters that are not blank is not trimmed. -/
lemma mem_trim_between {first last : Char} (hfirst : isBlank first = false)
    (hlast : isBlank last = false) (before after : Text) (h : c ∈ t) :
    c ∈ trim (before ++ first :: (t ++ last :: after)) := by
  rw [trim_append_cons hfirst, trimEnd_append_cons hlast]
  simp [h]

/-- What is left of a text begins with a character that is not blank. -/
lemma isBlank_of_trim_eq_cons {rest : Text} (h : trim t = c :: rest) : isBlank c = false := by
  rcases blank_or_eq_append_cons t with ht | ⟨blanks, d, after, rfl, hblanks, hd, -⟩
  · rw [trim, trimStart_of_blank ht] at h
    cases h
  · rw [trim_append_cons hd, trimStart_of_blank hblanks] at h
    obtain ⟨rfl, -⟩ := List.cons.inj h
    exact hd

lemma length_trim_le (t : Text) : (trim t).length ≤ t.length :=
  (prefix_trimEnd _).length_le.trans (suffix_trimStart t).length_le

lemma trim_eq_self_of_length_le (h : t.length ≤ (trim t).length) : trim t = t := by
  have hstart : (trimStart t).length ≤ t.length := (suffix_trimStart t).length_le
  have hend : (trim t).length ≤ (trimStart t).length := (prefix_trimEnd _).length_le
  have hright : trim t = trimStart t :=
    (prefix_trimEnd _).eq_of_length (hend.antisymm (hstart.trans h))
  have hleft : trimStart t = t := (suffix_trimStart t).eq_of_length (by omega)
  rw [hright, hleft]

lemma trimStart_eq_self_iff : trimStart t = t ↔ ∀ c ∈ t.head?, isBlank c = false := by
  cases t with
  | nil => simp [trimStart]
  | cons c rest =>
    cases hc : isBlank c with
    | false => simp [trimStart, hc]
    | true =>
      refine iff_of_false (fun heq => ?_) (by simp [hc])
      have hshort := List.length_dropWhile_le isBlank rest
      rw [trimStart, List.dropWhile_cons_of_pos hc] at heq
      rw [heq, List.length_cons] at hshort
      omega

lemma trimStart_eq_self (h : trim t = t) : trimStart t = t := by
  refine (suffix_trimStart t).eq_of_length ((suffix_trimStart t).length_le.antisymm ?_)
  have hend : (trim t).length ≤ (trimStart t).length := (prefix_trimEnd _).length_le
  rwa [h] at hend

lemma trimEnd_eq_self (h : trim t = t) : trimEnd t = t := by
  conv_lhs => rw [← trimStart_eq_self h]
  exact h

/-- A trimmed text that is not empty keeps what stands before it. -/
lemma trimEnd_append_of_trim (h : trim t = t) (hne : t ≠ []) (s : Text) :
    trimEnd (s ++ t) = s ++ t := by
  have hlast := List.rdropWhile_eq_self_iff.1 (trimEnd_eq_self h) hne
  apply List.rdropWhile_eq_self_iff.2
  intro _
  rwa [List.getLast_append_of_ne_nil _ hne]

/-- A text that begins with no blank keeps what stands in front of it. -/
lemma trim_append_of_start (hs : trimStart s = s) (ht : trimStart t = t) (hne : t ≠ []) :
    trim (s ++ t) = s ++ trim t := by
  obtain ⟨c, rest, rfl⟩ := List.exists_cons_of_ne_nil hne
  have hc : isBlank c = false := trimStart_eq_self_iff.1 ht c rfl
  have htrim : trim (c :: rest) = c :: trimEnd rest := trim_append_cons hc [] rest
  rw [trim_append_cons hc, hs, htrim]

section Cutting

variable {mark : Char} {before after : Text}

lemma cutAt_append_cons (h : mark ∉ before) (after : Text) :
    cutAt mark (before ++ mark :: after) = some (before, after) := by
  induction before with
  | nil => simp [cutAt]
  | cons c before ih =>
    obtain ⟨hc, hbefore⟩ : mark ≠ c ∧ mark ∉ before := by simpa using h
    simp [cutAt, hc.symm, ih hbefore]

lemma cutAt_eq_some_iff :
    cutAt mark t = some (before, after) ↔ t = before ++ mark :: after ∧ mark ∉ before := by
  refine ⟨fun h => ?_, fun ⟨ht, hbefore⟩ => ht ▸ cutAt_append_cons hbefore after⟩
  induction t generalizing before with
  | nil => cases h
  | cons c rest ih =>
    unfold cutAt at h
    split at h
    · rename_i hc
      obtain ⟨rfl, rfl⟩ : [] = before ∧ rest = after := by simpa using h
      exact ⟨by rw [hc]; rfl, List.not_mem_nil⟩
    · rename_i hc
      obtain ⟨parts, hparts, heq⟩ := Option.map_eq_some_iff.1 h
      obtain ⟨rfl, rfl⟩ : c :: parts.1 = before ∧ parts.2 = after := by simpa using heq
      obtain ⟨hrest, hbefore⟩ := ih hparts
      exact ⟨congrArg (c :: ·) hrest,
        List.not_mem_cons_of_ne_of_not_mem (fun heq => hc heq.symm) hbefore⟩

end Cutting

lemma firstWord_trimStart (t : Text) : firstWord (trimStart t) = firstWord t := by
  rw [firstWord, firstWord, trimStart, trimStart, List.dropWhile_idempotent]

/-- A word that a blank or the end follows is the first word. -/
lemma firstWord_append (hword : word ≠ []) (hsolid : ∀ c ∈ word, isBlank c = false)
    (hrest : ∀ c, t.head? = some c → isBlank c) : firstWord (word ++ t) = some (word, trim t) := by
  obtain ⟨c, rest, rfl⟩ := List.exists_cons_of_ne_nil hword
  have hstart : trimStart (c :: rest ++ t) = c :: (rest ++ t) := by
    simp [trimStart, hsolid c List.mem_cons_self]
  have hall : ∀ d ∈ c :: rest, (!isBlank d) = true := by simpa using hsolid
  have htake : t.takeWhile (!isBlank ·) = [] := by
    cases t with
    | nil => rfl
    | cons d t => simp [hrest d rfl]
  have hdrop : t.dropWhile (!isBlank ·) = t := by
    cases t with
    | nil => rfl
    | cons d t => simp [hrest d rfl]
  rw [firstWord, hstart]
  simp only [← List.cons_append]
  rw [List.takeWhile_append_of_pos hall, List.dropWhile_append_of_pos hall, htake, hdrop,
    List.append_nil]

/-- A text without a word is blank; the others begin with their first word. -/
lemma firstWord_cases (t : Text) :
    (∀ c ∈ t, isBlank c) ∧ firstWord t = none ∨
      ∃ blanks word rest, t = blanks ++ (word ++ rest) ∧ (∀ c ∈ blanks, isBlank c) ∧ word ≠ [] ∧
        (∀ c ∈ word, isBlank c = false) ∧ (∀ c, rest.head? = some c → isBlank c) ∧
          firstWord t = some (word, trim rest) := by
  rcases blank_or_eq_append_cons t with ht | ⟨blanks, c, rest, ht, hblanks, hc, hstart⟩
  · refine .inl ⟨ht, ?_⟩
    rw [firstWord, trimStart_of_blank ht]
  · have hsplit := List.takeWhile_append_dropWhile (p := (!isBlank ·)) (l := c :: rest)
    refine .inr ⟨blanks, (c :: rest).takeWhile (!isBlank ·), (c :: rest).dropWhile (!isBlank ·),
      by rw [hsplit, ht], hblanks, by simp [hc], ?_, ?_, ?_⟩
    · intro d hd
      simpa using List.mem_takeWhile_imp hd
    · intro d hd
      have hhead := List.head?_dropWhile_not (!isBlank ·) (c :: rest)
      rw [hd] at hhead
      simpa using hhead
    · rw [firstWord, hstart]

/-- Blanks at the end of a text belong to no word. -/
lemma firstWord_append_blank (h : ∀ c ∈ blanks, isBlank c) (t : Text) :
    firstWord (t ++ blanks) = firstWord t := by
  rcases firstWord_cases t with
    ⟨ht, hnone⟩ | ⟨first, word, rest, rfl, hfirst, hword, hsolid, hrest, hsome⟩
  · have hboth : ∀ c ∈ t ++ blanks, isBlank c := List.forall_mem_append.2 ⟨ht, h⟩
    rw [hnone, firstWord, trimStart_of_blank hboth]
  · have hhead : ∀ c, (rest ++ blanks).head? = some c → isBlank c := by
      intro c hc
      cases rest with
      | nil => exact h c (List.mem_of_mem_head? hc)
      | cons d rest => exact hrest c hc
    rw [hsome, ← firstWord_trimStart, trimStart, List.append_assoc,
      List.dropWhile_append_of_pos hfirst, ← trimStart, firstWord_trimStart, List.append_assoc,
      firstWord_append hword hsolid hhead, trim_append_blank h]

lemma firstWord_trimEnd (t : Text) : firstWord (trimEnd t) = firstWord t := by
  obtain ⟨blanks, ht, hblanks⟩ := exists_trimEnd_append t
  conv_rhs => rw [ht]
  rw [firstWord_append_blank hblanks]

lemma firstWord_trim (t : Text) : firstWord (trim t) = firstWord t := by
  rw [trim, firstWord_trimEnd, firstWord_trimStart]

end Keyfile.Text
