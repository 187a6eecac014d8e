import Keyfile.Directive.Statement
import Keyfile.Proofs.LineBreaks

/-!
# What statements hold

The keys, the arguments and the values that statements hold come from trimmed lines: keys and
arguments hold no line breaks, and the lines of a value are trimmed and do not close a block, the
first one excepted.
-/

namespace Keyfile

open Text

/-- A value as a source text can give it. -/
structure Tidy (value : Text) : Prop where
  trimmed : trim value = value
  joined : join crlf (lines value) = value
  line_trimmed : ∀ line ∈ lines value, trim line = line
  line_inside : ∀ line ∈ (lines value).tail, ¬blockEnd.isPrefixOf line

lemma mem_tail_of_between {α : Type} {kept parts : List α} {a : α} (h : kept <:+: parts)
    (ha : a ∈ kept.tail) : a ∈ parts.tail := by
  obtain ⟨before, after, rfl⟩ := h
  cases kept with
  | nil => cases ha
  | cons first rest =>
    have hrest : a ∈ rest := ha
    cases before with
    | nil => simp [hrest]
    | cons second before => simp [hrest]

lemma tidy_trim_join {parts : List Text} (hunbroken : ∀ part ∈ parts, Unbroken part)
    (htrimmed : ∀ part ∈ parts, trim part = part)
    (hinside : ∀ part ∈ parts.tail, ¬blockEnd.isPrefixOf part) :
    Tidy (trim (join crlf parts)) := by
  obtain ⟨kept, hkept, hlast, hjoin⟩ := exists_trim_join htrimmed
  have hlines : lines (join crlf kept) = kept :=
    lines_join_crlf (fun part hpart => hunbroken part (hkept.subset hpart)) hlast
  refine ⟨trim_trim _, ?_, ?_, ?_⟩
  · rw [hjoin, hlines]
  · rw [hjoin, hlines]
    exact fun part hpart => htrimmed part (hkept.subset hpart)
  · rw [hjoin, hlines]
    exact fun part hpart => hinside part (mem_tail_of_between hkept hpart)

lemma unbroken_trim {t : Text} (h : Unbroken t) : Unbroken (trim t) :=
  fun c hc => h c (mem_of_mem_trim hc)

/-- A trimmed part of a line is a tidy value. -/
lemma tidy_trim {t : Text} (h : Unbroken t) : Tidy (trim t) := by
  have htidy : Tidy (trim (join crlf [trim t])) :=
    tidy_trim_join (by simpa using unbroken_trim h) (by simp) (by simp)
  rwa [join, trim_trim] at htidy

/-- What a statement holds comes from lines. -/
def Statement.Readable : Statement → Prop
  | entry key value => Unbroken key ∧ Tidy value
  | directive _ argument => Unbroken argument
  | unknown _ => True

/-- An open value holds trimmed lines that do not close it. -/
structure OpenValue.Readable (value : OpenValue) : Prop where
  key : Unbroken value.key
  unbroken : ∀ part ∈ value.parts, Unbroken part
  trimmed : ∀ part ∈ value.parts, trim part = part
  inside : ∀ part ∈ value.parts.tail, ¬blockEnd.isPrefixOf part

namespace OpenValue

variable {value : OpenValue} {line : Text}

lemma Readable.close (h : value.Readable) : value.close.2.Readable :=
  ⟨h.key, tidy_trim_join h.unbroken h.trimmed h.inside⟩

lemma Readable.push (h : value.Readable) (hline : Unbroken line)
    (hinside : ¬blockEnd.isPrefixOf (trim line)) :
    Readable { value with parts := value.parts ++ [trim line] } where
  key := h.key
  unbroken := List.forall_mem_append.2 ⟨h.unbroken, by simpa using unbroken_trim hline⟩
  trimmed := List.forall_mem_append.2 ⟨h.trimmed, by simp⟩
  inside part hpart := by
    cases hparts : value.parts with
    | nil => simp [hparts] at hpart
    | cons first rest =>
      have hmem : part ∈ rest ∨ part = trim line := by simpa [hparts] using hpart
      rcases hmem with hrest | rfl
      · exact h.inside part (by simpa [hparts] using hrest)
      · exact hinside

lemma readable_opened {key first : Text} (number : Nat) (hkey : Unbroken key)
    (hfirst : Unbroken first) : (opened number key (trim first)).Readable where
  key := hkey
  unbroken := by
    unfold opened
    split
    · simp
    · simpa using unbroken_trim hfirst
  trimmed := by
    unfold opened
    split <;> simp
  inside := by
    unfold opened
    split <;> simp

end OpenValue

lemma unbroken_of_firstWord {t word rest : Text} (h : Unbroken t)
    (hword : firstWord t = some (word, rest)) : Unbroken rest := by
  rcases firstWord_cases t with ⟨-, hnone⟩ | ⟨blanks, w, r, rfl, -, -, -, -, hsome⟩
  · rw [hnone] at hword
    cases hword
  · obtain ⟨-, rfl⟩ : w = word ∧ trim r = rest := by simpa [hsome] using hword
    exact unbroken_trim fun c hc => h c (by simp [hc])

lemma unbroken_of_cutAt {mark : Char} {t before after : Text} (h : Unbroken t)
    (hcut : cutAt mark t = some (before, after)) : Unbroken before ∧ Unbroken after := by
  obtain ⟨rfl, -⟩ := cutAt_eq_some_iff.1 hcut
  exact ⟨fun c hc => h c (by simp [hc]), fun c hc => h c (by simp [hc])⟩

namespace Statement

lemma readable_ofDirectiveLine {t : Text} (h : Unbroken t) : (ofDirectiveLine t).Readable := by
  unfold ofDirectiveLine
  split
  · trivial
  · rename_i word argument hword
    split
    · exact unbroken_of_firstWord h hword
    · trivial

/-- What the parts around the first equals sign of a line say. -/
def Line.ofParts (key value : Text) : Line :=
  if blockStart.isPrefixOf (trim value) then
    .opening (trim key) (trim ((trim value).drop blockStart.length))
  else .statement (.entry (trim key) (trim value))

lemma Line.ofText_sign (afterSign : Text) :
    Line.ofText ('#' :: afterSign) = .statement (ofDirectiveLine afterSign) := rfl

lemma Line.ofText_of_cutAt {line key value : Text} (hcomment : isComment line = false)
    (hsign : line.head? ≠ some '#') (hcut : cutAt '=' line = some (key, value)) :
    Line.ofText line = Line.ofParts key value := by
  have hne : line ≠ [] := by
    rintro rfl
    cases hcut
  have hother : ∀ afterSign, line = '#' :: afterSign → False := by
    rintro afterSign rfl
    exact hsign rfl
  rw [Line.ofText, if_neg (by simp [hne, hcomment])]
  · rw [hcut]
    rfl
  · exact hother

/-- A line says nothing, or it is a directive, or it has an equals sign and is no comment. -/
lemma Line.ofText_cases (line : Text) :
    Line.ofText line = .nothing ∨
      (∃ afterSign, line = '#' :: afterSign ∧
        Line.ofText line = .statement (ofDirectiveLine afterSign)) ∨
      ∃ key value, isComment line = false ∧ line.head? ≠ some '#' ∧
        cutAt '=' line = some (key, value) ∧ Line.ofText line = Line.ofParts key value := by
  by_cases hskipped : line = [] || isComment line
  · refine .inl ?_
    unfold Line.ofText
    rw [if_pos hskipped]
  · obtain ⟨c, rest, rfl⟩ := List.exists_cons_of_ne_nil (show line ≠ [] by simp_all)
    have hcomment : isComment (c :: rest) = false := by simp_all
    by_cases hsign : c = '#'
    · subst hsign
      exact .inr (.inl ⟨rest, rfl, rfl⟩)
    · have hhead : (c :: rest).head? ≠ some '#' := by simpa using hsign
      cases hcut : cutAt '=' (c :: rest) with
      | none =>
        refine .inl ?_
        rw [Line.ofText, if_neg hskipped]
        · rw [hcut]
        · rintro afterSign heq
          exact hsign (List.cons.inj heq).1
      | some parts =>
        exact .inr (.inr ⟨parts.1, parts.2, hcomment, hhead, rfl,
          Line.ofText_of_cutAt hcomment hhead hcut⟩)

/-- An entry is read from the parts around the first equals sign of its line. -/
lemma Line.cutAt_of_ofText_entry {line key value : Text}
    (h : Line.ofText line = .statement (.entry key value)) :
    ∃ before after, cutAt '=' line = some (before, after) ∧ trim before = key ∧
      trim after = value ∧ blockStart.isPrefixOf value = false := by
  rcases Line.ofText_cases line with
    hnothing | ⟨afterSign, -, hline⟩ | ⟨before, after, -, -, hcut, hline⟩
  · rw [hnothing] at h
    cases h
  · rw [hline] at h
    have heq : ofDirectiveLine afterSign = .entry key value := Line.statement.inj h
    unfold ofDirectiveLine at heq
    split at heq
    · cases heq
    · split at heq <;> cases heq
  · rw [hline, Line.ofParts] at h
    split at h
    · cases h
    · rename_i hinline
      cases h
      exact ⟨before, after, hcut, rfl, rfl, eq_false_of_ne_true hinline⟩

/-- What a line says is readable, or it opens a readable value. -/
lemma readable_ofText {line : Text} (h : Unbroken line) :
    (∀ statement, Line.ofText line = .statement statement → statement.Readable) ∧
      ∀ key first number, Line.ofText line = .opening key first →
        (OpenValue.opened number key first).Readable := by
  rcases Line.ofText_cases line with
    hnothing | ⟨afterSign, rfl, hline⟩ | ⟨key, value, -, -, hcut, hline⟩
  · simp [hnothing]
  · rw [hline]
    refine ⟨?_, by simp⟩
    rintro statement ⟨⟩
    exact readable_ofDirectiveLine (List.forall_mem_cons.1 h).2
  · obtain ⟨hkey, hvalue⟩ := unbroken_of_cutAt h hcut
    rw [hline, Line.ofParts]
    split
    · refine ⟨by simp, ?_⟩
      rintro _ _ number ⟨⟩
      apply OpenValue.readable_opened number (unbroken_trim hkey)
      intro c hc
      exact unbroken_trim hvalue c (List.mem_of_mem_drop hc)
    · refine ⟨?_, by simp⟩
      rintro statement ⟨⟩
      exact ⟨unbroken_trim hkey, tidy_trim hvalue⟩

end Statement

lemma readable_of_mem_gather {state : Option OpenValue} {number : Nat} {texts : List Text}
    (hstate : ∀ value, state = some value → value.Readable)
    (htexts : ∀ line ∈ texts, Unbroken line) {numbered : Nat × Statement}
    (h : numbered ∈ gather state number texts) : numbered.2.Readable := by
  fun_induction gather state number texts with
  | case1 => cases h
  | case2 value number =>
    obtain rfl := List.mem_singleton.1 h
    exact (hstate value rfl).close
  | case3 value number line rest trimmed hend ih =>
    obtain ⟨-, hrest⟩ := List.forall_mem_cons.1 htexts
    rcases List.mem_cons.1 h with rfl | h
    · exact (hstate value rfl).close
    · exact ih (by simp) hrest h
  | case4 value number line rest trimmed hinside ih =>
    obtain ⟨hline, hrest⟩ := List.forall_mem_cons.1 htexts
    refine ih ?_ hrest h
    rintro _ ⟨⟩
    exact (hstate value rfl).push hline hinside
  | case5 number line rest hnothing ih =>
    exact ih (by simp) (List.forall_mem_cons.1 htexts).2 h
  | case6 number line rest statement hsaying ih =>
    obtain ⟨hline, hrest⟩ := List.forall_mem_cons.1 htexts
    rcases List.mem_cons.1 h with rfl | h
    · exact (Statement.readable_ofText (unbroken_trim hline)).1 statement hsaying
    · exact ih (by simp) hrest h
  | case7 number line rest key first hopens ih =>
    obtain ⟨hline, hrest⟩ := List.forall_mem_cons.1 htexts
    refine ih ?_ hrest h
    rintro _ ⟨⟩
    exact (Statement.readable_ofText (unbroken_trim hline)).2 key first number hopens

theorem readable_of_mem_statements {text : Text} {numbered : Nat × Statement}
    (h : numbered ∈ statements text) : numbered.2.Readable :=
  readable_of_mem_gather (by simp) (fun _ hline => unbroken_of_mem_lines hline) h

end Keyfile
