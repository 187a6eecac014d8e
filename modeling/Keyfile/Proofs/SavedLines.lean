import Keyfile.Configuration.Saved
import Keyfile.Proofs.Loaded

/-!
# Reading saved lines

A definition and an entry are read back from the lines that are saved for them exactly when they
are legible. A key is legible when it stands for itself at the start of a line: nothing of it is
trimmed, cut off at an equals sign or taken for a comment, a directive or a leading period. A value
is legible when it does not open or close a block by itself.
-/

namespace Keyfile

open Text

/-- A text of a macro that stands on one line and loses nothing there. -/
structure LegibleText (text : Text) : Prop where
  trimmed : trim text = text
  unbroken : Unbroken text

/-- A key that stands for itself at the start of a line. -/
structure LegibleKey (key : Text) : Prop where
  trimmed : trim key = key
  outermost : Key.qualify none key = key
  no_equals : '=' ∉ key
  no_sign : key.head? ≠ some '#'
  no_comment : isComment key = false

/-- A value that does not open a block by itself, or does not close the one it is written in. -/
def LegibleValue (value : Text) : Prop :=
  if isMultiline value then ¬blockEnd.isPrefixOf value else ¬blockStart.isPrefixOf value

/-- What a statement says of a configuration at the outermost level. -/
inductive Saying
  | definition (name text : Text)
  | entry (key value : Text)
  deriving DecidableEq, Repr

/-- What a statement says, if it says anything. -/
def Statement.says? : Statement → Option Saying
  | entry key value => if key = [] then none else some (.entry (Key.qualify none key) value)
  | directive .define argument =>
    match Pass.definition .define argument with
    | .ok (name, text) => some (.definition name text)
    | .error _ => none
  | directive _ _ => none
  | unknown _ => none

/-- What the numbered statements of a source text say. -/
def said (numbered : List (Nat × Statement)) : List (Nat × Option Saying) :=
  numbered.map fun statement => (statement.1, statement.2.says?)

namespace Statement

/-- Only a definition can say a definition, and the text that it says is legible. -/
lemma legibleText_of_says {statement : Statement} (hreadable : statement.Readable)
    {name text : Text} (h : statement.says? = some (.definition name text)) : LegibleText text := by
  cases statement with
  | entry key value =>
    rw [says?] at h
    split at h <;> cases h
  | unknown line => cases h
  | directive word argument =>
    cases word with
    | define =>
      rw [says?] at h
      rcases firstWord_cases argument with ⟨-, hnone⟩ | ⟨-, word, rest, -, -, -, -, -, hsome⟩
      · simp [Pass.definition, hnone] at h
      · have hrest := unbroken_of_firstWord hreadable hsome
        simp only [Pass.definition, hsome] at h
        split at h
        · rename_i heq
          split at heq
          · cases heq
          · cases heq
            cases h
            exact ⟨trim_trim rest, hrest⟩
        · cases h
    | _ => cases h

lemma says?_ofDirectiveLine (afterSign key value : Text) :
    (ofDirectiveLine afterSign).says? ≠ some (.entry key value) := by
  unfold ofDirectiveLine
  split
  · simp [says?]
  · split
    · rename_i known _
      cases known with
      | define =>
        rw [says?]
        split <;> simp
      | _ => simp [says?]
    · simp [says?]

end Statement

/-- A definition is read back from its line but for the blanks around its text. -/
lemma says?_definitionLine {name : Text} (hname : MacroName name) (text : Text) :
    ∃ statement, Statement.Line.ofText (trim (definitionLine (name, text))) =
      .statement statement ∧ statement.says? = some (.definition name (trim text)) := by
  have hblank : ∀ {t : Text} (c : Char), (' ' :: t).head? = some c → isBlank c := by
    rintro t c ⟨⟩
    rfl
  have hargument : firstWord ("define".toList ++ ' ' :: (name ++ ' ' :: text)) =
      some ("define".toList, trim (' ' :: (name ++ ' ' :: text))) :=
    firstWord_append (by decide) (by simp [isBlank]) hblank
  have hdefinition : firstWord (trim (' ' :: (name ++ ' ' :: text))) = some (name, trim text) := by
    have hspace : ∀ t, trimStart (' ' :: t) = trimStart t := fun t => rfl
    rw [firstWord_trim, ← firstWord_trimStart, hspace, firstWord_trimStart,
      firstWord_append hname.nonempty hname.solid hblank]
    exact congrArg (fun t => some (name, t)) (congrArg trimEnd (hspace text))
  have hline : trim (definitionLine (name, text)) =
      '#' :: trimEnd ("define".toList ++ ' ' :: (name ++ ' ' :: text)) := by
    have heq : "#define ".toList ++ name ++ ' ' :: text =
        [] ++ '#' :: ("define".toList ++ ' ' :: (name ++ ' ' :: text)) := by simp
    rw [definitionLine, trim_trimEnd, heq, trim_append_cons rfl]
    rfl
  refine ⟨.directive .define (trim (' ' :: (name ++ ' ' :: text))), ?_, ?_⟩
  · rw [hline, Statement.Line.ofText_sign, Statement.ofDirectiveLine, firstWord_trimEnd, hargument]
    rfl
  · simp [Statement.says?, Pass.definition, hdefinition, hname.free]

def headLine (key after : Text) : Text :=
  key ++ " = ".toList ++ after

lemma headLine_eq (key after : Text) :
    headLine key after = key ++ [' '] ++ '=' :: (' ' :: after) := by
  simp [headLine]

lemma isComment_append_blank (key after : Text) :
    isComment (key ++ ' ' :: after) = isComment key := by
  cases key with
  | nil => rfl
  | cons c key =>
    cases key with
    | nil => simp [isComment, List.isPrefixOf]
    | cons d key => simp [isComment, List.isPrefixOf]

lemma trim_blank_cons (t : Text) : trim (' ' :: t) = trim t := rfl

/-- What the line says that begins an entry without an equals sign in its key. -/
lemma ofText_headLine {key : Text} (hequals : '=' ∉ key) (after : Text)
    (hcomment : isComment (trim (headLine key after)) = false)
    (hsign : (trim (headLine key after)).head? ≠ some '#') :
    Statement.Line.ofText (trim (headLine key after)) =
      if blockStart.isPrefixOf (trim after) then
        .opening (trim key) (trim ((trim after).drop blockStart.length))
      else .statement (.entry (trim key) (trim after)) := by
  have htrim : trim (headLine key after) =
      trimStart (key ++ [' ']) ++ '=' :: trimEnd (' ' :: after) := by
    rw [headLine_eq, trim_append_cons rfl]
  have hbefore : '=' ∉ trimStart (key ++ [' ']) := by
    intro hmem
    have hmem := (suffix_trimStart _).subset hmem
    simp [hequals] at hmem
  have hcut : cutAt '=' (trim (headLine key after)) =
      some (trimStart (key ++ [' ']), trimEnd (' ' :: after)) := by
    rw [htrim, cutAt_append_cons hbefore]
  have hkey : trim (trimStart (key ++ [' '])) = trim key := by
    rw [trim_trimStart, trim_append_blank (by simp [isBlank])]
  have hafter : trim (trimEnd (' ' :: after)) = trim after := by
    rw [trim_trimEnd, trim_blank_cons]
  rw [Statement.Line.ofText_of_cutAt hcomment hsign hcut, Statement.Line.ofParts, hkey, hafter]

/-- A key that is not blank keeps its place in the line that it begins. -/
lemma trim_headLine {key : Text} (htrimmed : trim key = key) (hne : key ≠ []) (after : Text) :
    trim (headLine key after) = key ++ ' ' :: ('=' :: trimEnd (' ' :: after)) := by
  obtain ⟨c, rest, rfl⟩ := List.exists_cons_of_ne_nil hne
  have hc := isBlank_of_trim_eq_cons htrimmed
  have hstart : trimStart (c :: rest ++ [' ']) = c :: rest ++ [' '] :=
    List.dropWhile_cons_of_neg (by simp [hc])
  rw [headLine_eq, trim_append_cons rfl, hstart]
  simp

lemma LegibleKey.ofText {key : Text} (h : LegibleKey key) (hne : key ≠ []) (after : Text) :
    Statement.Line.ofText (trim (headLine key after)) =
      if blockStart.isPrefixOf (trim after) then
        .opening key (trim ((trim after).drop blockStart.length))
      else .statement (.entry key (trim after)) := by
  have hline := trim_headLine h.trimmed hne after
  have hcomment : isComment (trim (headLine key after)) = false := by
    rw [hline, isComment_append_blank, h.no_comment]
  have hsign : (trim (headLine key after)).head? ≠ some '#' := by
    obtain ⟨c, rest, rfl⟩ := List.exists_cons_of_ne_nil hne
    rw [hline]
    simpa using h.no_sign
  rw [ofText_headLine h.no_equals after hcomment hsign, h.trimmed]

lemma Key.qualify_none_cases (key : Text) :
    Key.qualify none key = key ∨ ∃ rest, key = '.' :: rest ∧ Key.qualify none key = rest := by
  cases key with
  | nil => exact .inl rfl
  | cons c rest =>
    by_cases hperiod : c = '.'
    · subst hperiod
      cases rest with
      | nil => exact .inl rfl
      | cons d rest => exact .inr ⟨d :: rest, rfl, rfl⟩
    · refine .inl ?_
      simp [Key.qualify, Key.join, Key.withoutInitialPeriod, hperiod]

lemma Key.mem_of_mem_qualify_none {key : Text} {c : Char} (h : c ∈ Key.qualify none key) :
    c ∈ key := by
  rcases Key.qualify_none_cases key with heq | ⟨rest, rfl, heq⟩
  · rwa [heq] at h
  · rw [heq] at h
    exact List.mem_cons_of_mem _ h

/-- Before the first equals sign of its line stands a key that has none itself. -/
lemma trim_of_cutAt {key after found value : Text} (hequals : '=' ∉ key)
    (hcut : cutAt '=' (trim (headLine key after)) = some (found, value)) :
    trim found = trim key := by
  have hline : trim (headLine key after) =
      trimStart (key ++ [' ']) ++ '=' :: trimEnd (' ' :: after) := by
    rw [headLine_eq, trim_append_cons rfl]
  have hbefore : '=' ∉ trimStart (key ++ [' ']) := by
    intro hmem
    have hmem := (suffix_trimStart _).subset hmem
    simp [hequals] at hmem
  rw [hline, cutAt_append_cons hbefore] at hcut
  obtain ⟨rfl, -⟩ := Prod.mk.inj (Option.some.inj hcut)
  rw [trim_trimStart, trim_append_blank (by simp [isBlank])]

/-- A key is legible when an entry gives it back that was read where its own line stands. -/
lemma legibleKey_of_cutAt {key after found value : Text} (hne : key ≠ [])
    (hcomment : isComment (trim (headLine key after)) = false)
    (hsign : (trim (headLine key after)).head? ≠ some '#')
    (hcut : cutAt '=' (trim (headLine key after)) = some (found, value))
    (hkey : Key.qualify none (trim found) = key) : LegibleKey key := by
  have hsubset : ∀ c ∈ key, c ∈ found := by
    rw [← hkey]
    exact fun c hc => mem_of_mem_trim (Key.mem_of_mem_qualify_none hc)
  have hequals : '=' ∉ key := by
    intro hmem
    exact (cutAt_eq_some_iff.1 hcut).2 (hsubset _ hmem)
  rw [trim_of_cutAt hequals hcut] at hkey
  have htrimmed : trim key = key := by
    apply trim_eq_self_of_length_le
    rcases Key.qualify_none_cases (trim key) with heq | ⟨rest, hrest, heq⟩
    · rw [← heq, hkey]
    · have hlength : (trim key).length = key.length + 1 := by rw [hrest, ← heq, hkey]; rfl
      omega
  rw [trim_headLine htrimmed hne] at hcomment hsign
  rw [htrimmed] at hkey
  refine ⟨htrimmed, hkey, hequals, ?_, by rwa [isComment_append_blank] at hcomment⟩
  obtain ⟨c, rest, rfl⟩ := List.exists_cons_of_ne_nil hne
  simpa using hsign

/-- An open value takes the lines up to the one that closes it. -/
lemma gather_some (value : OpenValue) (number : Nat) (texts : List Text) :
    ∃ first rest, rest <:+ texts ∧ gather (some value) number texts =
      OpenValue.close { value with
        parts := value.parts ++ (texts.map trim).takeWhile (!blockEnd.isPrefixOf ·) } ::
          gather none first rest := by
  induction texts generalizing value number with
  | nil => exact ⟨number, [], List.suffix_rfl, by simp [gather]⟩
  | cons line texts ih =>
    rw [gather]
    by_cases hend : blockEnd.isPrefixOf (trim line)
    · exact ⟨number + 1, texts, List.suffix_cons line texts, by simp [hend]⟩
    · obtain ⟨first, rest, hsuffix, hrest⟩ :=
        ih { value with parts := value.parts ++ [trim line] } (number + 1)
      exact ⟨first, rest, hsuffix.trans (List.suffix_cons line texts), by simp [hend, hrest]⟩

/-- The first of several lines makes no statement, or it begins the first statement. -/
lemma gather_none_cases (number : Nat) (line : Text) (texts : List Text) :
    gather none number (line :: texts) = gather none (number + 1) texts ∨
      ∃ statement first rest, rest <:+ texts ∧
        gather none number (line :: texts) = (number, statement) :: gather none first rest := by
  rw [gather]
  split
  · exact .inl rfl
  · rename_i statement _
    exact .inr ⟨statement, number + 1, texts, List.suffix_rfl, rfl⟩
  · obtain ⟨first, rest, hsuffix, hrest⟩ := gather_some (OpenValue.opened number _ _) (number + 1) texts
    exact .inr ⟨_, first, rest, hsuffix, hrest⟩

/-- The lines of a block are read up to its end. -/
lemma gather_block {texts : List Text} (htrimmed : ∀ line ∈ texts, trim line = line)
    (hinside : ∀ line ∈ texts, ¬blockEnd.isPrefixOf line) (value : OpenValue) (number : Nat)
    (rest : List Text) :
    gather (some value) number (texts ++ blockEnd :: rest) =
      OpenValue.close { value with parts := value.parts ++ texts } ::
        gather none (number + texts.length + 1) rest := by
  induction texts generalizing value number with
  | nil =>
    have hend : blockEnd.isPrefixOf (trim blockEnd) := by decide
    simp [gather, hend]
  | cons line texts ih =>
    obtain ⟨hline, htexts⟩ := List.forall_mem_cons.1 htrimmed
    obtain ⟨hopen, hopens⟩ := List.forall_mem_cons.1 hinside
    rw [List.cons_append, gather, hline]
    simp only [hopen, Bool.false_eq_true, if_false]
    rw [ih htexts hopens]
    simp [Nat.add_comm, Nat.add_left_comm]

lemma le_of_mem_gather {state : Option OpenValue} {number first : Nat} {texts : List Text}
    (hstate : ∀ value, state = some value → first ≤ value.line) (hnumber : first ≤ number)
    {numbered : Nat × Statement} (h : numbered ∈ gather state number texts) :
    first ≤ numbered.1 := by
  fun_induction gather state number texts with
  | case1 => cases h
  | case2 value number =>
    obtain rfl := List.mem_singleton.1 h
    exact hstate value rfl
  | case3 value number line rest trimmed hend ih =>
    rcases List.mem_cons.1 h with rfl | h
    · exact hstate value rfl
    · exact ih (by simp) (by omega) h
  | case4 value number line rest trimmed hinside ih =>
    refine ih ?_ (by omega) h
    rintro _ ⟨⟩
    exact hstate value rfl
  | case5 number line rest hnothing ih => exact ih (by simp) (by omega) h
  | case6 number line rest statement hsaying ih =>
    rcases List.mem_cons.1 h with rfl | h
    · exact hnumber
    · exact ih (by simp) (by omega) h
  | case7 number line rest key first' hopens ih =>
    refine ih ?_ (by omega) h
    rintro _ ⟨⟩
    exact hnumber

end Keyfile
