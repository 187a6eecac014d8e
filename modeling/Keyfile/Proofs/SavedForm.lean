import Keyfile.Proofs.SavedLines

/-!
# The saved form read back

The saved form of a loaded configuration says, line by line, what the configuration holds exactly
when all of the configuration is legible.
-/

namespace Keyfile

open Text

lemma Tidy.unbroken {value : Text} (h : Tidy value) (hsingle : isMultiline value = false) :
    Unbroken value := by
  rw [← h.joined]
  cases hlines : lines value with
  | nil => simp [join, Unbroken]
  | cons line others =>
    cases others with
    | nil => exact unbroken_of_mem_lines (hlines ▸ List.mem_singleton_self line)
    | cons second others =>
      have hreturn : '\r' ∈ value := by
        rw [← h.joined, hlines, join_cons_cons]
        simp [crlf]
      have hmulti : isMultiline value = true := List.any_eq_true.2 ⟨'\r', hreturn, rfl⟩
      rw [hmulti] at hsingle
      cases hsingle

/-- The first line of a value of several lines begins like the value. -/
lemma Tidy.exists_first {value : Text} (h : Tidy value) (hmulti : isMultiline value = true) :
    ∃ first others, lines value = first :: others ∧
      (blockEnd.isPrefixOf first ↔ blockEnd.isPrefixOf value) := by
  cases hlines : lines value with
  | nil =>
    have hnil : value = [] := by rw [← h.joined, hlines]; rfl
    rw [hnil] at hmulti
    cases hmulti
  | cons first others =>
    refine ⟨first, others, rfl, ?_⟩
    have hvalue : value = first ++ (if others = [] then [] else crlf ++ join crlf others) := by
      rw [← h.joined, hlines]
      cases others with
      | nil => simp [join]
      | cons second others => simp [join_cons_cons]
    have hfollow : ∀ line after : Text, blockEnd.isPrefixOf (line ++ (crlf ++ after)) =
        blockEnd.isPrefixOf line := by
      intro line after
      rcases line with _ | ⟨c, _ | ⟨d, rest⟩⟩
      · rfl
      · simp [blockEnd, crlf, List.isPrefixOf]
      · simp [blockEnd, List.isPrefixOf]
    rw [hvalue]
    split
    · simp
    · rw [hfollow]

lemma gather_entryLines {key value : Text} (hkey : LegibleKey key) (hne : key ≠ [])
    (htidy : Tidy value) (hvalue : LegibleValue value) (number : Nat) (rest : List Text) :
    gather none number (entryLines (key, value) ++ rest) =
      (number, .entry key value) ::
        gather none (number + (entryLines (key, value)).length) rest := by
  rw [LegibleValue] at hvalue
  cases hmulti : isMultiline value with
  | false =>
    rw [hmulti, if_neg (by simp)] at hvalue
    have hlines : entryLines (key, value) = [headLine key value] := by
      simp [entryLines, hmulti, headLine]
    have hline := hkey.ofText hne value
    rw [htidy.trimmed, if_neg hvalue] at hline
    rw [hlines, List.singleton_append, gather, hline]
    rfl
  | true =>
    rw [hmulti, if_pos rfl] at hvalue
    have hlines : entryLines (key, value) =
        headLine key blockStart :: (lines value ++ [blockEnd]) := by
      simp [entryLines, hmulti, headLine]
    have hline := hkey.ofText hne blockStart
    rw [if_pos (by decide)] at hline
    have hinside : ∀ line ∈ lines value, ¬blockEnd.isPrefixOf line := by
      obtain ⟨first, others, hfirst, hbegins⟩ := htidy.exists_first hmulti
      intro line hmem
      rw [hfirst] at hmem
      rcases List.mem_cons.1 hmem with rfl | hmem
      · rwa [hbegins]
      · exact htidy.line_inside line (by rwa [hfirst])
    have hclose : OpenValue.close ⟨key, number, [] ++ lines value⟩ =
        (number, .entry key value) := by
      have hjoined : trim (join crlf (lines value)) = value := by
        rw [htidy.joined, htidy.trimmed]
      exact congrArg (fun t => (number, Statement.entry key t)) hjoined
    rw [hlines, List.cons_append, gather, hline]
    have hopened : OpenValue.opened number key
        (trim ((trim blockStart).drop blockStart.length)) = ⟨key, number, []⟩ := rfl
    simp only [hopened, List.append_assoc, List.singleton_append]
    have hnumber : number + 1 + (lines value).length + 1 =
        number + (headLine key blockStart :: (lines value ++ [blockEnd])).length := by
      simp only [List.length_cons, List.length_append, List.length_nil]
      omega
    rw [gather_block htidy.line_trimmed hinside, hclose, hnumber]

/-- The lines that follow an opened value, up to the one that closes it. -/
def blockLines (rest : List Text) : List Text :=
  (rest.map trim).takeWhile (!blockEnd.isPrefixOf ·)

/-- The value that is read after an equals sign, the lines that follow being given. -/
def valueRead (after : Text) (rest : List Text) : Text :=
  if blockStart.isPrefixOf (trim after) then
    trim (join crlf ((OpenValue.opened 0 [] (trim ((trim after).drop blockStart.length))).parts ++
      blockLines rest))
  else trim after

/-- An entry that is said at the number of a line was read from the parts of that line. -/
lemma cases_of_said {line key value : Text} {number : Nat} {rest : List Text}
    {tail : List (Nat × Option Saying)}
    (h : said (gather none number (line :: rest)) = (number, some (.entry key value)) :: tail) :
    ∃ found after, isComment (trim line) = false ∧ (trim line).head? ≠ some '#' ∧
      cutAt '=' (trim line) = some (found, after) ∧ Key.qualify none (trim found) = key ∧
        valueRead after rest = value := by
  rw [gather] at h
  rcases Statement.Line.ofText_cases (trim line) with
    hnothing | ⟨afterSign, -, hline⟩ | ⟨found, after, hcomment, hsign, hcut, hline⟩
  · rw [hnothing] at h
    have hmem : (number, some (Saying.entry key value)) ∈ said (gather none (number + 1) rest) := by
      rw [h]
      exact List.mem_cons_self
    obtain ⟨numbered, hnumbered, heq⟩ := List.mem_map.1 hmem
    have hle : number + 1 ≤ numbered.1 := le_of_mem_gather (by simp) le_rfl hnumbered
    have hnumber : numbered.1 = number := congrArg Prod.fst heq
    omega
  · rw [hline] at h
    have hsaying := (Prod.mk.inj (List.cons.inj h).1).2
    exact absurd hsaying (Statement.says?_ofDirectiveLine afterSign key value)
  · refine ⟨found, after, hcomment, hsign, hcut, ?_⟩
    have hentry : ∀ read, Statement.says? (.entry (trim found) read) = some (.entry key value) →
        Key.qualify none (trim found) = key ∧ read = value := by
      intro read hsaying
      rw [Statement.says?] at hsaying
      split at hsaying
      · cases hsaying
      · cases hsaying
        exact ⟨rfl, rfl⟩
    rw [hline, Statement.Line.ofParts] at h
    unfold valueRead
    split at h
    · rename_i heq
      split at heq <;> cases heq
    · rename_i statement heq
      split at heq
      · cases heq
      · rename_i hopen
        cases heq
        rw [if_neg hopen]
        exact hentry _ (Prod.mk.inj (List.cons.inj h).1).2
    · rename_i opened first heq
      split at heq
      · rename_i hopen
        cases heq
        rw [if_pos hopen]
        obtain ⟨_, _, -, hothers⟩ := gather_some
          (OpenValue.opened number (trim found) (trim ((trim after).drop blockStart.length)))
          (number + 1) rest
        rw [hothers] at h
        exact hentry _ (Prod.mk.inj (List.cons.inj h).1).2
      · cases heq

lemma blockLines_cases {rest : List Text} (hrest : ∀ line, rest.head? = some line → '=' ∈ line) :
    blockLines rest = [] ∨ ∃ line others, blockLines rest = line :: others ∧ '=' ∈ line := by
  cases rest with
  | nil => exact .inl rfl
  | cons line others =>
    have hmem : '=' ∈ trim line := mem_trim rfl (hrest line rfl)
    rw [blockLines, List.map_cons, List.takeWhile_cons]
    split
    · exact .inr ⟨trim line, _, rfl, hmem⟩
    · exact .inl rfl

/-- The line break behind a first line that is not blank stays in the value. -/
lemma isMultiline_trim_join {first line : Text} (hfirst : trim first ≠ []) (hequals : '=' ∈ line)
    (others : List Text) :
    isMultiline (trim (join crlf (trim first :: line :: others))) = true := by
  obtain ⟨c, tail, hc⟩ := List.exists_cons_of_ne_nil hfirst
  have hsolid := isBlank_of_trim_eq_cons hc
  have hjoin : '=' ∈ join crlf (line :: others) := mem_join crlf List.mem_cons_self hequals
  obtain ⟨before, after, hsplit⟩ := List.append_of_mem hjoin
  have hreturn : '\r' ∈ trim (join crlf (trim first :: line :: others)) := by
    rw [join_cons_cons, hc, hsplit]
    have hbetween : '\r' ∈ tail ++ crlf ++ before := by simp [crlf]
    have hmem : '\r' ∈ trim ([] ++ c :: (tail ++ crlf ++ before ++ '=' :: after)) :=
      mem_trim_between hsolid rfl [] after hbetween
    simpa using hmem
  exact List.any_eq_true.2 ⟨'\r', hreturn, rfl⟩

/-- A value of a single line that opens a block is not read back: either lines follow in the block,
or the value has lost what opens the block. -/
lemma valueRead_ne_of_blockStart {value : Text} {rest : List Text} (htidy : Tidy value)
    (hsingle : isMultiline value = false) (hopen : blockStart.isPrefixOf value)
    (hrest : ∀ line, rest.head? = some line → '=' ∈ line) : valueRead value rest ≠ value := by
  intro h
  obtain ⟨w, rfl⟩ := List.isPrefixOf_iff_prefix.1 hopen
  have hdrop : (blockStart ++ w).drop blockStart.length = w := List.drop_left
  rw [valueRead, htidy.trimmed, if_pos hopen, hdrop] at h
  rcases blockLines_cases hrest with hlines | ⟨line, others, hblock, hmem⟩
  · rw [hlines, List.append_nil, OpenValue.opened] at h
    split at h
    · simp [join, trim, trimStart, trimEnd, dropTail, blockStart] at h
    · have hlength := congrArg List.length h
      have hle := length_trim_le w
      simp only [join, trim_trim, List.length_append] at hlength
      simp only [blockStart, List.length_cons, List.length_nil] at hlength
      omega
  · rw [hblock, OpenValue.opened] at h
    split at h
    · rename_i hfirst
      -- the rest of the opening line is blank, but the value holds an equals sign
      have hvalue : '=' ∈ blockStart ++ w := by
        rw [← h]
        exact mem_trim rfl (mem_join crlf List.mem_cons_self hmem)
      have hw : '=' ∈ w := by simpa [blockStart] using hvalue
      have hlost : '=' ∈ trim w := mem_trim rfl hw
      rw [hfirst] at hlost
      cases hlost
    · rename_i hfirst
      have hmulti := isMultiline_trim_join hfirst hmem others
      rw [List.singleton_append] at h
      rw [← h, hmulti] at hsingle
      cases hsingle

/-- A value of several lines that closes its block is not read back. -/
lemma valueRead_ne_of_blockEnd {value : Text} (htidy : Tidy value)
    (hmulti : isMultiline value = true) (hclose : blockEnd.isPrefixOf value) (rest : List Text) :
    valueRead blockStart (lines value ++ rest) ≠ value := by
  obtain ⟨first, others, hlines, hbegins⟩ := htidy.exists_first hmulti
  have hfirst : blockEnd.isPrefixOf (trim first) := by
    rw [htidy.line_trimmed first (by simp [hlines])]
    exact hbegins.2 hclose
  have hread : valueRead blockStart (lines value ++ rest) = [] := by
    rw [valueRead, if_pos (by decide), hlines, blockLines, List.cons_append, List.map_cons,
      List.takeWhile_cons, if_neg (by simp [hfirst])]
    rfl
  rw [hread]
  rintro rfl
  cases hmulti

lemma valueRead_congr {a b : Text} (h : trim a = trim b) (rest : List Text) :
    valueRead a rest = valueRead b rest := by
  rw [valueRead, valueRead, h]

/-- An entry has been read back from its lines only if it is legible. -/
lemma legible_of_said {key value : Text} (hne : key ≠ []) (htidy : Tidy value) {number : Nat}
    {rest : List Text} (hrest : ∀ line, rest.head? = some line → '=' ∈ line)
    {tail : List (Nat × Option Saying)}
    (h : said (gather none number (entryLines (key, value) ++ rest)) =
      (number, some (.entry key value)) :: tail) : LegibleKey key ∧ LegibleValue value := by
  have hafter : ∀ {after found text : Text}, LegibleKey key →
      cutAt '=' (trim (headLine key after)) = some (found, text) → trim text = trim after := by
    intro after found text hkey hcut
    have hbefore : '=' ∉ key ++ [' '] := by simp [hkey.no_equals]
    have hline : trim (headLine key after) = key ++ [' '] ++ '=' :: trimEnd (' ' :: after) := by
      rw [trim_headLine hkey.trimmed hne]
      simp
    rw [hline, cutAt_append_cons hbefore] at hcut
    obtain ⟨-, rfl⟩ := Prod.mk.inj (Option.some.inj hcut)
    rw [trim_trimEnd, trim_blank_cons]
  rw [LegibleValue]
  cases hmulti : isMultiline value with
  | false =>
    have hlines : entryLines (key, value) = [headLine key value] := by
      simp [entryLines, hmulti, headLine]
    rw [hlines, List.singleton_append] at h
    obtain ⟨found, after, hcomment, hsign, hcut, hkey, hvalue⟩ := cases_of_said h
    have hkey := legibleKey_of_cutAt hne hcomment hsign hcut hkey
    refine ⟨hkey, ?_⟩
    rw [if_neg (by simp)]
    intro hopen
    rw [valueRead_congr (hafter hkey hcut)] at hvalue
    exact valueRead_ne_of_blockStart htidy hmulti hopen hrest hvalue
  | true =>
    have hlines : entryLines (key, value) =
        headLine key blockStart :: (lines value ++ [blockEnd]) := by
      simp [entryLines, hmulti, headLine]
    rw [hlines, List.cons_append, List.append_assoc] at h
    obtain ⟨found, after, hcomment, hsign, hcut, hkey, hvalue⟩ := cases_of_said h
    have hkey := legibleKey_of_cutAt hne hcomment hsign hcut hkey
    refine ⟨hkey, ?_⟩
    rw [if_pos rfl]
    intro hclose
    rw [valueRead_congr (hafter hkey hcut)] at hvalue
    exact valueRead_ne_of_blockEnd htidy hmulti hclose _ hvalue

/-- What entries are meant to say, each at the number of its first line. -/
def meantEntries : Nat → List (Text × Text) → List (Nat × Option Saying)
  | _, [] => []
  | number, entry :: rest =>
    (number, some (.entry entry.1 entry.2)) :: meantEntries (number + (entryLines entry).length) rest

/-- What definitions are meant to say, one on each line. -/
def meantDefinitions : Nat → List (Text × Text) → List (Nat × Option Saying)
  | _, [] => []
  | number, definition :: rest =>
    (number, some (.definition definition.1 definition.2)) :: meantDefinitions (number + 1) rest

namespace Configuration

/-- What the saved form is meant to say, line by line. -/
def meant (config : Configuration) : List (Nat × Option Saying) :=
  let definitions := config.macros.entries
  meantDefinitions 1 definitions ++
    meantEntries (if definitions = [] then 1 else definitions.length + 2) config.store.items.entries

/-- All macros, keys and values are legible. -/
structure Legible (config : Configuration) : Prop where
  text : ∀ definition ∈ config.macros.entries, LegibleText definition.2
  key : ∀ entry ∈ config.store.items.entries, LegibleKey entry.1
  value : ∀ entry ∈ config.store.items.entries, LegibleValue entry.2

end Configuration

lemma exists_mem_meantDefinitions {definitions : List (Text × Text)} {definition : Text × Text}
    (h : definition ∈ definitions) (first : Nat) :
    ∃ number, (number, some (Saying.definition definition.1 definition.2)) ∈
      meantDefinitions first definitions := by
  induction definitions generalizing first with
  | nil => cases h
  | cons other others ih =>
    rcases List.mem_cons.1 h with rfl | h
    · exact ⟨first, List.mem_cons_self⟩
    · obtain ⟨number, hnumber⟩ := ih h (first + 1)
      exact ⟨number, List.mem_cons_of_mem _ hnumber⟩

lemma head?_flatMap_entryLines {entries : List (Text × Text)} {line : Text}
    (h : (entries.flatMap entryLines).head? = some line) : '=' ∈ line := by
  cases entries with
  | nil => cases h
  | cons entry rest =>
    rw [List.flatMap_cons, entryLines] at h
    split at h
    · obtain rfl : _ = line := by simpa using h
      simp
    · obtain rfl : _ = line := by simpa using h
      simp

/-- Entries are read back from their lines exactly when all of them are legible. -/
theorem said_entries_iff {entries : List (Text × Text)} (hkeys : ∀ entry ∈ entries, entry.1 ≠ [])
    (hvalues : ∀ entry ∈ entries, Tidy entry.2) (number : Nat) :
    said (gather none number (entries.flatMap entryLines)) = meantEntries number entries ↔
      ∀ entry ∈ entries, LegibleKey entry.1 ∧ LegibleValue entry.2 := by
  induction entries generalizing number with
  | nil => simp [gather, said, meantEntries]
  | cons entry rest ih =>
    obtain ⟨hne, hkeys⟩ := List.forall_mem_cons.1 hkeys
    obtain ⟨htidy, hvalues⟩ := List.forall_mem_cons.1 hvalues
    rw [List.flatMap_cons, meantEntries, List.forall_mem_cons]
    have hread : LegibleKey entry.1 ∧ LegibleValue entry.2 →
        said (gather none number (entryLines entry ++ rest.flatMap entryLines)) =
          (number, some (.entry entry.1 entry.2)) ::
            said (gather none (number + (entryLines entry).length) (rest.flatMap entryLines)) := by
      rintro ⟨hkey, hvalue⟩
      rw [gather_entryLines hkey hne htidy hvalue]
      simp [said, Statement.says?, hne, hkey.outermost]
    constructor
    · intro h
      have hlegible := legible_of_said hne htidy (fun _ => head?_flatMap_entryLines) h
      rw [hread hlegible] at h
      exact ⟨hlegible, (ih hkeys hvalues _).1 (List.cons.inj h).2⟩
    · rintro ⟨hlegible, hrest⟩
      rw [hread hlegible, (ih hkeys hvalues _).2 hrest]

lemma said_definitions {definitions : List (Text × Text)}
    (hnames : ∀ definition ∈ definitions, MacroName definition.1)
    (htexts : ∀ definition ∈ definitions, LegibleText definition.2) (number : Nat)
    (rest : List Text) :
    said (gather none number (definitions.map definitionLine ++ rest)) =
      meantDefinitions number definitions ++
        said (gather none (number + definitions.length) rest) := by
  induction definitions generalizing number with
  | nil => rfl
  | cons definition others ih =>
    obtain ⟨hname, hnames⟩ := List.forall_mem_cons.1 hnames
    obtain ⟨htext, htexts⟩ := List.forall_mem_cons.1 htexts
    obtain ⟨statement, hline, hsaying⟩ := says?_definitionLine hname definition.2
    rw [htext.trimmed] at hsaying
    rw [List.map_cons, List.cons_append, gather, hline, meantDefinitions, List.cons_append]
    have ih := ih hnames htexts (number + 1)
    rw [Nat.add_right_comm, Nat.add_assoc] at ih
    rw [List.length_cons, ← ih]
    simp [said, hsaying]

lemma MacroName.unbroken {name : Text} (h : MacroName name) : Unbroken name := by
  intro c hc
  cases hbreak : isLineBreak c with
  | false => rfl
  | true =>
    have hblank := isBlank_of_isLineBreak hbreak
    rw [h.solid c hc] at hblank
    cases hblank

lemma unbroken_definitionLine {name text : Text} (hname : MacroName name)
    (htext : Unbroken text) : Unbroken (definitionLine (name, text)) := by
  intro c hc
  have hmem : c ∈ "#define ".toList ++ name ++ ' ' :: text := (prefix_trimEnd _).subset hc
  rcases List.mem_append.1 hmem with hmem | hmem
  · rcases List.mem_append.1 hmem with hmem | hmem
    · exact (show Unbroken "#define ".toList by decide) c hmem
    · exact hname.unbroken c hmem
  · rcases List.mem_cons.1 hmem with rfl | hmem
    · rfl
    · exact htext c hmem

lemma unbroken_headLine {key after : Text} (hkey : Unbroken key) (hafter : Unbroken after) :
    Unbroken (headLine key after) :=
  have hsign : Unbroken " = ".toList := by decide
  List.forall_mem_append.2 ⟨List.forall_mem_append.2 ⟨hkey, hsign⟩, hafter⟩

lemma unbroken_of_mem_entryLines {key value line : Text} (hkey : Unbroken key) (htidy : Tidy value)
    (h : line ∈ entryLines (key, value)) : Unbroken line := by
  cases hmulti : isMultiline value with
  | false =>
    obtain rfl : line = headLine key value := by simpa [entryLines, hmulti, headLine] using h
    exact unbroken_headLine hkey (htidy.unbroken hmulti)
  | true =>
    have h : line = headLine key blockStart ∨ line ∈ lines value ∨ line = blockEnd := by
      simpa [entryLines, hmulti, headLine] using h
    rcases h with rfl | h | rfl
    · exact unbroken_headLine hkey (by decide)
    · exact unbroken_of_mem_lines h
    · decide

namespace Configuration

variable {config : Configuration}

/-- The saved form is read line by line when no text of a macro breaks its line. -/
lemma Loaded.statements_saved (h : config.Loaded)
    (htexts : ∀ definition ∈ config.macros.entries, Unbroken definition.2) :
    statements (config.saved none) = gather none 1 (config.savedLines none) := by
  have hunbroken : ∀ line ∈ config.savedLines none, Unbroken line := by
    intro line hline
    rcases List.mem_append.1 hline with hline | hline
    · rcases List.mem_append.1 hline with hline | hline
      · obtain ⟨definition, hmem, rfl⟩ := List.mem_map.1 hline
        exact unbroken_definitionLine (h.macros.name _ hmem) (htexts _ hmem)
      · split at hline
        · cases hline
        · obtain rfl := List.mem_singleton.1 hline
          simp [Unbroken]
    · obtain ⟨entry, hmem, hline⟩ := List.mem_flatMap.1 hline
      exact unbroken_of_mem_entryLines (h.items.key _ hmem).unbroken (h.items.value _ hmem) hline
  rw [statements, saved]
  by_cases hempty : config.savedLines none = []
  · rw [hempty]
    rfl
  · rw [lines_join_newline hempty hunbroken]

/-- Legible definitions are followed by the entries, after an empty line if there are any. -/
lemma Loaded.said_savedLines (h : config.Loaded)
    (htexts : ∀ definition ∈ config.macros.entries, LegibleText definition.2) :
    said (gather none 1 (config.savedLines none)) =
      meantDefinitions 1 config.macros.entries ++
        said (gather none
          (if config.macros.entries = [] then 1 else config.macros.entries.length + 2)
          (config.store.items.entries.flatMap entryLines)) := by
  rw [savedLines, List.append_assoc, said_definitions h.macros.name htexts]
  by_cases hempty : config.macros.entries = []
  · simp [hempty, entries, Store.below]
  · have hlines : config.macros.entries.map definitionLine ≠ [] := by simpa using hempty
    rw [if_neg hlines, if_neg hempty, List.singleton_append, gather]
    have hblank : Statement.Line.ofText (trim []) = .nothing := rfl
    rw [hblank, Nat.add_comm 1, Nat.add_assoc]
    rfl

/-- The saved form of a loaded configuration says what the configuration holds, each definition and
each entry at the number of its own line, exactly when all of the configuration is legible. -/
theorem Loaded.said_saved_iff (h : config.Loaded) :
    said (statements (config.saved none)) = config.meant ↔ config.Legible := by
  have hkeys : ∀ entry ∈ config.store.items.entries, entry.1 ≠ [] :=
    fun entry hmem => (h.items.key entry hmem).nonempty
  constructor
  · intro heq
    have htexts : ∀ definition ∈ config.macros.entries, LegibleText definition.2 := by
      intro definition hmem
      have hsaid : ∃ number, (number, some (Saying.definition definition.1 definition.2)) ∈
          said (statements (config.saved none)) := by
        obtain ⟨number, hnumber⟩ := exists_mem_meantDefinitions hmem 1
        exact ⟨number, heq ▸ List.mem_append_left _ hnumber⟩
      obtain ⟨number, hsaid⟩ := hsaid
      obtain ⟨numbered, hnumbered, hsaying⟩ := List.mem_map.1 hsaid
      exact Statement.legibleText_of_says (readable_of_mem_statements hnumbered)
        (Prod.mk.inj hsaying).2
    rw [h.statements_saved fun definition hmem => (htexts definition hmem).unbroken,
      h.said_savedLines htexts] at heq
    have hentries := (said_entries_iff hkeys h.items.value _).1 (List.append_cancel_left heq)
    exact ⟨htexts, fun entry hmem => (hentries entry hmem).1, fun entry hmem => (hentries entry hmem).2⟩
  · intro hlegible
    rw [h.statements_saved fun definition hmem => (hlegible.text definition hmem).unbroken,
      h.said_savedLines hlegible.text,
      (said_entries_iff hkeys h.items.value _).2
        fun entry hmem => ⟨hlegible.key entry hmem, hlegible.value entry hmem⟩]
    rfl

end Configuration

end Keyfile
