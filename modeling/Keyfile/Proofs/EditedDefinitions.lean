import Keyfile.Proofs.Concatenation
import Keyfile.Proofs.Readable
import Keyfile.Proofs.SavedFile
import Keyfile.Proofs.Undisturbed
import Keyfile.Template.Definition

/-!
# Definitions that are edited

Editing the definitions of a macro looks at each line of a file by itself, for the word in lower
case with one space after it. Carrying out the text takes the word in any case, with any blanks
around it, and does not look into the values of several lines. The two mean the same lines exactly
when every definition of the macro begins in the way that is looked for and no line of a value
does; then editing gives just the definitions their new text, and tells whether there were any.
-/

namespace Keyfile

variable {source name value line rest : Text} {number index : Nat}

/-- The macro that a statement defines by a text. -/
def Statement.definedName? : Statement → Option Text
  | .directive .define argument => (Text.firstWord argument).map Prod.fst
  | .directive _ _ | .entry _ _ | .unknown _ => none

/-- The macro that a line defines when no value is open before it. -/
def lineDefinedName? (line : Text) : Option Text :=
  match Statement.Line.ofText (Text.trim line) with
  | .statement statement => statement.definedName?
  | .nothing | .opening _ _ => none

/-- A line of the text, counted from one, is a definition of the macro. -/
def DefinesAt (source name : Text) (number : Nat) : Prop :=
  ∃ numbered ∈ statements source, numbered.1 = number ∧ numbered.2.definedName? = some name

instance (source name : Text) (number : Nat) : Decidable (DefinesAt source name number) :=
  inferInstanceAs (Decidable (∃ numbered ∈ statements source, _ ∧ _))

/-- Whether a line of the text, counted from zero, stands in a value of several lines. -/
def withinValue (source : Text) (index : Nat) : Bool :=
  leavesOpen false ((Text.lines source).take index)

/-- Among lines of which the first has a given number, one defines the macro and no value is open
before it. -/
def DefinesFrom (isOpen : Bool) (start : Nat) (lines : List Text) (name : Text) (number : Nat) :
    Prop :=
  ∃ index line, number = start + index ∧ lines[index]? = some line ∧
    leavesOpen isOpen (lines.take index) = false ∧ lineDefinedName? line = some name

lemma not_definesFrom_nil (isOpen : Bool) (start : Nat) :
    ¬DefinesFrom isOpen start [] name number := by
  rintro ⟨index, line, -, hline, -⟩
  simp at hline

lemma definesFrom_cons (isOpen : Bool) (start : Nat) (line : Text) (lines : List Text) :
    DefinesFrom isOpen start (line :: lines) name number ↔
      (number = start ∧ isOpen = false ∧ lineDefinedName? line = some name) ∨
        DefinesFrom (leavesOpen isOpen [line]) (start + 1) lines name number := by
  have hopen : ∀ index, leavesOpen isOpen (line :: lines.take index) =
      leavesOpen (leavesOpen isOpen [line]) (lines.take index) := fun index =>
    leavesOpen_append isOpen [line] (lines.take index)
  constructor
  · rintro ⟨index, found, hnumber, hfound, hclosed, hname⟩
    cases index with
    | zero =>
      obtain rfl : line = found := Option.some.inj hfound
      exact .inl ⟨hnumber, by simpa [leavesOpen] using hclosed, hname⟩
    | succ index =>
      rw [List.take_succ_cons, hopen] at hclosed
      exact .inr ⟨index, found, by omega, hfound, hclosed, hname⟩
  · rintro (⟨hnumber, hclosed, hname⟩ | ⟨index, found, hnumber, hfound, hclosed, hname⟩)
    · exact ⟨0, line, hnumber, rfl, hclosed, hname⟩
    · refine ⟨index + 1, found, by omega, hfound, ?_, hname⟩
      rwa [List.take_succ_cons, hopen]

/-- The definitions among gathered statements are the lines that define a macro where no value is
open. -/
lemma exists_mem_gather_iff (state : Option OpenValue) (start : Nat) (lines : List Text) :
    (∃ numbered ∈ gather state start lines,
        numbered.1 = number ∧ numbered.2.definedName? = some name) ↔
      DefinesFrom state.isSome start lines name number := by
  have hclose : ∀ value : OpenValue, value.close.2.definedName? = none := fun _ => rfl
  fun_induction gather state start lines with
  | case1 number => simp [not_definesFrom_nil]
  | case2 value number => simp [not_definesFrom_nil, hclose]
  | case3 value start line lines trimmed hend ih =>
    have hend : blockEnd.isPrefixOf (Text.trim line) = true := hend
    have hnext : leavesOpen true [line] = false := by
      rw [leavesOpen, hend]
      rfl
    rw [Option.isSome_some, definesFrom_cons, hnext, ← Option.isSome_none, ih.symm]
    simp [hclose]
  | case4 value start line lines trimmed hinside ih =>
    have hinside : ¬blockEnd.isPrefixOf (Text.trim line) = true := hinside
    have hnext : leavesOpen true [line] = true := by
      rw [leavesOpen, eq_false_of_ne_true hinside]
      rfl
    rw [Option.isSome_some, definesFrom_cons, hnext]
    simpa using ih
  | case5 start line lines hnothing ih =>
    have hnext : leavesOpen false [line] = false := by
      rw [leavesOpen, opensValue, hnothing]
      rfl
    rw [Option.isSome_none, definesFrom_cons, hnext, lineDefinedName?, hnothing]
    simpa using ih
  | case6 start line lines statement hstatement ih =>
    have hnext : leavesOpen false [line] = false := by
      rw [leavesOpen, opensValue, hstatement]
      rfl
    rw [Option.isSome_none, definesFrom_cons, hnext, ← Option.isSome_none, ih.symm,
      lineDefinedName?, hstatement]
    simp [eq_comm]
  | case7 start line lines key first hopening ih =>
    have hnext : leavesOpen false [line] = true := by
      rw [leavesOpen, opensValue, hopening]
      rfl
    rw [Option.isSome_none, definesFrom_cons, hnext, lineDefinedName?, hopening]
    simpa using ih

/-- The definitions of a text are the lines that define a macro and stand in no value. -/
lemma definesAt_iff (source name : Text) (index : Nat) :
    DefinesAt source name (index + 1) ↔ ∃ line, (Text.lines source)[index]? = some line ∧
      withinValue source index = false ∧ lineDefinedName? line = some name := by
  rw [DefinesAt, statements, exists_mem_gather_iff]
  constructor
  · rintro ⟨found, line, hnumber, hline, hclosed, hname⟩
    obtain rfl : index = found := by omega
    exact ⟨line, hline, hclosed, hname⟩
  · rintro ⟨line, hline, hclosed, hname⟩
    exact ⟨index, line, Nat.add_comm index 1, hline, hclosed, hname⟩

lemma exists_definesAt_iff (source name : Text) :
    (∃ number, DefinesAt source name number) ↔ ∃ index, DefinesAt source name (index + 1) := by
  constructor
  · rintro ⟨number, h⟩
    obtain ⟨index, line, rfl, -⟩ := (exists_mem_gather_iff none 1 _).1 h
    exact ⟨index, by rwa [Nat.add_comm]⟩
  · rintro ⟨index, h⟩
    exact ⟨index + 1, h⟩

/-- A line that begins with the mark of definitions defines the macro that is named behind it. -/
lemma lineDefinedName?_of_mark (h : Text.trim line = definitionMark ++ rest) :
    lineDefinedName? line = (Text.firstWord rest).map Prod.fst := by
  have hsolid : ("define".toList.all fun c => Text.isBlank c == false) = true := by decide +kernel
  have hword : Text.firstWord ("define".toList ++ ' ' :: rest) =
      some ("define".toList, Text.trim (' ' :: rest)) := by
    refine Text.firstWord_append (by simp) (fun c hc => ?_) (fun c hc => ?_)
    · exact beq_iff_eq.1 (List.all_eq_true.1 hsolid c hc)
    · obtain rfl : ' ' = c := Option.some.inj hc
      rfl
  have hdirective : Statement.ofDirectiveLine ("define".toList ++ ' ' :: rest) =
      .directive .define (Text.trim (' ' :: rest)) := by
    rw [Statement.ofDirectiveLine, hword]
    dsimp only
    rw [show Text.lower "define".toList = Directive.define.word by decide +kernel,
      Directive.ofWord?_word]
  have hblank : Text.trimStart (' ' :: rest) = Text.trimStart rest := rfl
  rw [lineDefinedName?, h,
    show definitionMark ++ rest = '#' :: ("define".toList ++ ' ' :: rest) from rfl,
    Statement.Line.ofText_sign, hdirective]
  dsimp only [Statement.definedName?]
  rw [Text.firstWord_trim, ← Text.firstWord_trimStart, hblank, Text.firstWord_trimStart]

/-- A line that is edited begins with the mark of definitions. -/
lemma mark_prefix_of_defines (h : defines name line) : definitionMark <+: Text.trim line := by
  rw [defines, Bool.and_eq_true, List.isPrefixOf_iff_prefix] at h
  exact h.1

/-- Among the lines that begin with the mark, those that define the macro are edited. -/
lemma defines_iff_of_mark (h : definitionMark <+: Text.trim line) :
    defines name line ↔ lineDefinedName? line = some name := by
  obtain ⟨rest, hrest⟩ := h
  have hdrop : (Text.trim line).drop definitionMark.length = rest := by
    rw [← hrest, List.drop_left]
  rw [lineDefinedName?_of_mark hrest.symm, defines, hdrop, ← hrest,
    List.isPrefixOf_iff_prefix.2 (List.prefix_append _ _), Bool.true_and]
  cases Text.firstWord rest with
  | none => simp
  | some found => simp

/-- The definitions of a macro as editing expects them: each begins with the mark, and no line of a
value is like one. -/
structure PlainDefinitions (source name : Text) : Prop where
  marked : ∀ index line, (Text.lines source)[index]? = some line →
    DefinesAt source name (index + 1) → definitionMark <+: Text.trim line
  outside : ∀ index line, (Text.lines source)[index]? = some line → defines name line →
    withinValue source index = false

/-- The lines that are edited are the definitions exactly when these are plain. -/
lemma plainDefinitions_iff :
    PlainDefinitions source name ↔ ∀ index line, (Text.lines source)[index]? = some line →
      (defines name line ↔ DefinesAt source name (index + 1)) := by
  have hdefined : ∀ {index line}, (Text.lines source)[index]? = some line →
      (DefinesAt source name (index + 1) ↔
        withinValue source index = false ∧ lineDefinedName? line = some name) := by
    intro index line hline
    simp [definesAt_iff, hline]
  constructor
  · intro hplain index line hline
    constructor
    · intro h
      exact (hdefined hline).2 ⟨hplain.outside index line hline h,
        (defines_iff_of_mark (mark_prefix_of_defines h)).1 h⟩
    · intro h
      exact (defines_iff_of_mark (hplain.marked index line hline h)).2 ((hdefined hline).1 h).2
  · intro hsame
    exact {
      marked := fun index line hline h => mark_prefix_of_defines ((hsame index line hline).2 h)
      outside := fun index line hline h =>
        ((hdefined hline).1 ((hsame index line hline).1 h)).1 }

instance (source name : Text) : Decidable (PlainDefinitions source name) :=
  decidable_of_iff (∀ numbered ∈ (Text.lines source).zipIdx,
      (defines name numbered.1 ↔ DefinesAt source name (numbered.2 + 1))) (by
    rw [plainDefinitions_iff]
    simp only [Prod.forall, List.mem_zipIdx_iff_getElem?]
    exact forall_comm)

/-- A macro whose definitions are edited has a name on one line. -/
lemma unbroken_of_defines (h : defines name line) : Text.Unbroken name := by
  obtain ⟨rest, hrest⟩ := mark_prefix_of_defines h
  have hname := (defines_iff_of_mark ⟨rest, hrest⟩).1 h
  rw [lineDefinedName?_of_mark hrest.symm] at hname
  rcases Text.firstWord_cases rest with ⟨-, hnone⟩ | ⟨_, word, _, -, -, -, hsolid, -, hsome⟩
  · rw [hnone] at hname
    cases hname
  · rw [hsome] at hname
    obtain rfl : word = name := Option.some.inj hname
    intro c hc
    by_contra hbreak
    have hblank : Text.isBlank c := Text.isBlank_of_isLineBreak (eq_true_of_ne_false hbreak)
    rw [hsolid c hc] at hblank
    cases hblank

lemma lines_flatMap_crlf {lines : List Text} (h : ∀ line ∈ lines, Text.Unbroken line) :
    Text.lines (lines.flatMap fun line => line ++ Text.crlf) = lines := by
  induction lines with
  | nil => rfl
  | cons line lines ih =>
    obtain ⟨hline, hlines⟩ := List.forall_mem_cons.1 h
    rw [List.flatMap_cons, Text.lines_append_crlf hline, ih hlines]

/-- The edited text has the lines of the source, each edited by itself. -/
lemma lines_editDefinitions (hvalue : Text.Unbroken value) (name source : Text) :
    Text.lines (editDefinitions name value source) =
      (Text.lines source).map (editLine name value) := by
  have hedited : ∀ line ∈ (Text.lines source).map (editLine name value), Text.Unbroken line := by
    intro edited hedited
    obtain ⟨line, hline, rfl⟩ := List.mem_map.1 hedited
    unfold editLine
    split
    · rename_i hdefines
      have hname := unbroken_of_defines hdefines
      intro c hc
      rw [List.append_assoc, List.mem_append, List.mem_append, List.mem_cons] at hc
      rcases hc with hc | hc | rfl | hc
      · exact (show Text.Unbroken definitionMark by decide) c hc
      · exact hname c hc
      · rfl
      · exact hvalue c hc
    · exact Text.unbroken_of_mem_lines hline
  rw [← lines_flatMap_crlf hedited, List.flatMap_map]
  rfl

/-- Where the definitions are plain, they alone have their new text in the file. -/
lemma PlainDefinitions.lines_editDefinitions (h : PlainDefinitions source name)
    (hvalue : Text.Unbroken value) :
    Text.lines (editDefinitions name value source) =
      (Text.lines source).mapIdx fun index line =>
        if DefinesAt source name (index + 1) then definitionMark ++ name ++ ' ' :: value
        else line := by
  rw [Keyfile.lines_editDefinitions hvalue]
  apply List.ext_getElem? 
  intro index
  rw [List.getElem?_map, List.getElem?_mapIdx]
  cases hline : (Text.lines source)[index]? with
  | none => rfl
  | some line =>
    have hsame := plainDefinitions_iff.1 h index line hline
    simp only [Option.map_some, editLine, hsame]

/-- Where the definitions are plain, there is a line to edit exactly when there is a definition. -/
lemma PlainDefinitions.hasDefinition_iff (h : PlainDefinitions source name) :
    hasDefinition name source ↔ ∃ number, DefinesAt source name number := by
  rw [exists_definesAt_iff, hasDefinition, List.any_eq_true]
  constructor
  · rintro ⟨line, hline, hdefines⟩
    obtain ⟨index, hindex⟩ := List.mem_iff_getElem?.1 hline
    exact ⟨index, (plainDefinitions_iff.1 h index line hindex).1 hdefines⟩
  · rintro ⟨index, hdefined⟩
    obtain ⟨line, hline, -⟩ := (definesAt_iff source name index).1 hdefined
    exact ⟨line, List.mem_of_getElem? hline, (plainDefinitions_iff.1 h index line hline).2 hdefined⟩

namespace Session

/-- Editing a file that can be written writes the edited text and tells whether it had a line to
edit. -/
lemma exists_run_editDefinitions {world : World} {file : Text} {path : Path}
    (hresolve : (resolve file).run.run world = (.ok path, world))
    (hfile : world.files.get? path = some (.file (source.flatMap Encoding.utf8Bytes)))
    (hwritable : world.files.Writable path)
    (hwritten : world.RecordsApart (.textWritten (pathText path)) path)
    (hchanged : world.RecordsApart (.definitionsChanged name file) path) (value : Text) :
    ∃ after, (Session.editDefinitions file name value).run.run world =
        (.ok (hasDefinition name source), after) ∧
      after.files.get? path =
        some (.file ((Keyfile.editDefinitions name value source).flatMap Encoding.utf8Bytes)) := by
  have hlines := Text.lines_normalizeNewlines source
  have htext : Keyfile.editDefinitions name value (Text.normalizeNewlines source) =
      Keyfile.editDefinitions name value source := by
    rw [Keyfile.editDefinitions, hlines, ← Keyfile.editDefinitions]
  have hfound : hasDefinition name (Text.normalizeNewlines source) =
      hasDefinition name source := by
    rw [hasDefinition, hlines, ← hasDefinition]
  obtain ⟨files, hwrite, hwrote⟩ :=
    exists_run_writeText_deliver hwritable (Keyfile.editDefinitions name value source)
  have hne := Replacement.temporary_ne world.files (FileTree.ne_nil_of_get? hwritable.free)
  have hspares : Log.Output.Spares ⟨files, _, world.console⟩ path _ :=
    ⟨hwrote.node, hwritten.streams.avoids_follow (Replacement.get?_temporary world.files path) hne⟩
  have hlogged := hspares.deliver hwritten.handlers world.machine.time
  rw [Session.editDefinitions, run_bind_of_ok hresolve, run_bind_of_ok (run_readText hfile), htext,
    hfound, run_bind_of_ok hwrite]
  -- a definition that was found is told of, after the writing
  cases hasDefinition name source with
  | false => exact ⟨_, rfl, hlogged.node⟩
  | true => exact ⟨_, rfl, (hlogged.deliver hchanged.handlers world.machine.time).node⟩

/-- Editing a file edits each of its lines by itself. The lines that are edited are those that
carrying out the text takes for the definitions of the macro exactly when these are plain. Then the
call returns whether there is a definition, and it leaves every line but the definitions. -/
theorem editDefinitions_of_plain {world : World} {file : Text} {path : Path}
    (hresolve : (resolve file).run.run world = (.ok path, world))
    (hfile : world.files.get? path = some (.file (source.flatMap Encoding.utf8Bytes)))
    (hwritable : world.files.Writable path)
    (hwritten : world.RecordsApart (.textWritten (pathText path)) path)
    (hchanged : world.RecordsApart (.definitionsChanged name file) path)
    (hvalue : Text.Unbroken value) :
    ∃ found after edited, (Session.editDefinitions file name value).run.run world =
        (.ok found, after) ∧
      after.files.get? path = some (.file (edited.flatMap Encoding.utf8Bytes)) ∧
      Text.lines edited = (Text.lines source).map (editLine name value) ∧
      (PlainDefinitions source name ↔ ∀ index line, (Text.lines source)[index]? = some line →
        (defines name line ↔ DefinesAt source name (index + 1))) ∧
      (PlainDefinitions source name → (found ↔ ∃ number, DefinesAt source name number) ∧
        Text.lines edited = (Text.lines source).mapIdx fun index line =>
          if DefinesAt source name (index + 1) then definitionMark ++ name ++ ' ' :: value
          else line) := by
  obtain ⟨after, hrun, hnode⟩ :=
    exists_run_editDefinitions hresolve hfile hwritable hwritten hchanged value
  exact ⟨_, after, _, hrun, hnode, lines_editDefinitions hvalue name source, plainDefinitions_iff,
    fun hplain => ⟨hplain.hasDefinition_iff, hplain.lines_editDefinitions hvalue⟩⟩

/-- A definition, one in a branch that is not taken, one of another macro, and one of yet another
that stands in a value. -/
def stageText : Text :=
  Text.join ['\n'] (["#define ENV dev", "#if false", "  #define ENV\ttest ", "#endif",
    "#define ENVIRONMENT x", "body = \x7b\x7b", "#define OTHER y", "\x7d\x7d"].map String.toList)

def stagePath : Path := ["stage.ini".toList]

/-- A world with one file, and no loggers. -/
def worldOf (text : Text) : World where
  machine := default
  files := ⟨[(stagePath, .file (text.flatMap Encoding.utf8Bytes))]⟩

lemma resolve_worldOf (text : Text) :
    (resolve "stage.ini".toList).run.run (worldOf text) = (.ok stagePath, worldOf text) :=
  rfl

lemma get?_worldOf (text : Text) :
    (worldOf text).files.get? stagePath = some (.file (text.flatMap Encoding.utf8Bytes)) :=
  rfl

lemma writable_worldOf (text : Text) : (worldOf text).files.Writable stagePath where
  askable := ⟨true, rfl⟩
  parent := rfl
  room := by decide +kernel
  free := by simp [get?_worldOf]

lemma recordsApart_worldOf (text : Text) (event : Event) :
    (worldOf text).RecordsApart event stagePath where
  handlers := fun handler hhandler =>
    have hquiet : (worldOf text).Undisturbed (· = stagePath) :=
      World.undisturbed_of_silent rfl rfl
    hquiet.handlers event handler hhandler stagePath rfl
  streams := by rintro number stream place ⟨⟩

theorem editDefinitions_stageText :
    ∃ after edited, (Session.editDefinitions "stage.ini".toList "ENV".toList "prod".toList).run.run
        (worldOf stageText) = (.ok true, after) ∧
      after.files.get? stagePath = some (.file (edited.flatMap Encoding.utf8Bytes)) ∧
      Text.lines edited = ["#define ENV prod", "#if false", "#define ENV prod", "#endif",
        "#define ENVIRONMENT x", "body = \x7b\x7b", "#define OTHER y", "\x7d\x7d"].map
          String.toList := by
  have hvalue : Text.Unbroken "prod".toList := by decide +kernel
  obtain ⟨found, after, edited, hrun, hfile, -, -, hplain⟩ :=
    editDefinitions_of_plain (resolve_worldOf stageText) (get?_worldOf stageText)
      (writable_worldOf stageText) (recordsApart_worldOf stageText _)
      (recordsApart_worldOf stageText (.definitionsChanged "ENV".toList _)) hvalue
  obtain ⟨hfound, hlines⟩ := hplain (by decide +kernel)
  obtain rfl : found = true := hfound.2 ⟨1, by decide +kernel⟩
  exact ⟨after, edited, hrun, hfile, by rw [hlines]; decide +kernel⟩

/-- A line of a value that begins like a definition is edited with the definitions. -/
example : ¬PlainDefinitions (Text.join ['\n']
    (["body = \x7b\x7b", "#define ENV dev", "\x7d\x7d"].map String.toList)) "ENV".toList := by
  decide +kernel

def tabbedText : Text :=
  "#define\tENV dev\n".toList

/-- A definition with a tab behind the word is carried out as a definition, but it is not edited. -/
theorem editDefinitions_tabbedText :
    Configuration.load {} .silent tabbedText =
        (pure { macros := ⟨[("ENV".toList, "dev".toList)]⟩ } : ExceptT LoadError Id Configuration) ∧
      DefinesAt tabbedText "ENV".toList 1 ∧
      ∃ after, (Session.editDefinitions "stage.ini".toList "ENV".toList "prod".toList).run.run
          (worldOf tabbedText) = (.ok false, after) ∧
        after.files.get? stagePath =
          some (.file ("#define\tENV dev\r\n".toList.flatMap Encoding.utf8Bytes)) := by
  refine ⟨by decide +kernel, by decide +kernel, ?_⟩
  obtain ⟨after, hrun, hfile⟩ := exists_run_editDefinitions (resolve_worldOf tabbedText)
    (get?_worldOf tabbedText) (writable_worldOf tabbedText) (recordsApart_worldOf tabbedText _)
    (recordsApart_worldOf tabbedText (.definitionsChanged "ENV".toList _)) "prod".toList
  exact ⟨after, hrun, hfile⟩

end Session

end Keyfile
