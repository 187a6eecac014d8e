import Keyfile.Proofs.EditedDefinitions
import Keyfile.Proofs.EncodedTexts

/-!
# Lines that are edited again and again

A line that was edited still defines its macro and no other, whatever text it was given. So edits of
two macros can be made in either order, of two edits of one macro the last one counts, and whether
there is a line to edit does not depend on the edits before.
-/

namespace Keyfile

variable {source name other value line : Text}

lemma defines_iff : defines name line ↔ ∃ rest, Text.trim line = definitionMark ++ rest ∧
    (Text.firstWord rest).map Prod.fst = some name := by
  constructor
  · intro h
    obtain ⟨rest, hrest⟩ := mark_prefix_of_defines h
    refine ⟨rest, hrest.symm, ?_⟩
    rw [← lineDefinedName?_of_mark hrest.symm]
    exact (defines_iff_of_mark ⟨rest, hrest⟩).1 h
  · rintro ⟨rest, hrest, hword⟩
    exact (defines_iff_of_mark ⟨rest, hrest.symm⟩).2 ((lineDefinedName?_of_mark hrest).trans hword)

/-- A line defines one macro at most. -/
lemma defines_unique (h : defines name line) (hother : defines other line) : name = other := by
  obtain ⟨rest, hrest, hword⟩ := defines_iff.1 h
  obtain ⟨others, hothers, hotherWord⟩ := defines_iff.1 hother
  obtain rfl := List.append_cancel_left (hrest.symm.trans hothers)
  exact Option.some.inj (hword.symm.trans hotherWord)

/-- A macro that a line defines is named by a word of the line. -/
lemma word_of_defines (h : defines name line) :
    name ≠ [] ∧ (∀ c ∈ name, Text.isBlank c = false) ∧ ∀ c ∈ name, c ∈ line := by
  obtain ⟨rest, hrest, hword⟩ := defines_iff.1 h
  rcases Text.firstWord_cases rest with
    ⟨-, hnone⟩ | ⟨_, word, after, hsplit, -, hne, hsolid, -, hsome⟩
  · rw [hnone] at hword
    cases hword
  · rw [hsome] at hword
    cases hword
    refine ⟨hne, hsolid, fun c hc => Text.mem_of_mem_trim ?_⟩
    rw [hrest, hsplit]
    simp [hc]

/-- A line that is written for a macro defines it, even with nothing but blanks behind it. -/
lemma defines_written (hname : name ≠ []) (hsolid : ∀ c ∈ name, Text.isBlank c = false)
    (value : Text) : defines name (definitionMark ++ name ++ ' ' :: value) := by
  have hmark : Text.trimStart definitionMark = definitionMark := by decide
  have hstart : Text.trimStart (name ++ ' ' :: value) = name ++ ' ' :: value := by
    rw [Text.trimStart_eq_self_iff, List.head?_append_of_ne_nil _ hname]
    exact fun c hc => hsolid c (List.mem_of_mem_head? hc)
  refine defines_iff.2 ⟨Text.trim (name ++ ' ' :: value), ?_, ?_⟩
  · rw [List.append_assoc, Text.trim_append_of_start hmark hstart (by simp)]
  · rw [Text.firstWord_trim, Text.firstWord_append hname hsolid]
    · rfl
    · rintro c hc
      cases hc
      rfl

lemma editLine_of_defines (h : defines name line) (value : Text) :
    editLine name value line = definitionMark ++ name ++ ' ' :: value :=
  if_pos h

lemma editLine_of_not_defines (h : defines name line = false) (value : Text) :
    editLine name value line = line :=
  if_neg (Bool.eq_false_iff.1 h)

/-- An edit changes what a line says, but not which macro it defines. -/
lemma defines_editLine (name other value line : Text) :
    defines other (editLine name value line) = defines other line := by
  cases hdefines : defines name line with
  | false => rw [editLine_of_not_defines hdefines]
  | true =>
    -- the old line and the new one define the edited macro, and a line defines no second one
    obtain ⟨hname, hsolid, -⟩ := word_of_defines hdefines
    have hwritten := defines_written hname hsolid value
    rw [editLine_of_defines hdefines, Bool.eq_iff_iff]
    constructor
    · intro hother
      rwa [← defines_unique hwritten hother]
    · intro hother
      rwa [← defines_unique hdefines hother]

lemma editLine_editLine (name value text line : Text) :
    editLine name text (editLine name value line) = editLine name text line := by
  have hagain := defines_editLine name name value line
  cases hdefines : defines name line with
  | false => rw [editLine_of_not_defines hdefines value]
  | true => rw [editLine_of_defines (hagain.trans hdefines), editLine_of_defines hdefines]

lemma editLine_comm (hne : name ≠ other) (value text line : Text) :
    editLine other text (editLine name value line) =
      editLine name value (editLine other text line) := by
  have hleft := defines_editLine name other value line
  have hright := defines_editLine other name text line
  cases hname : defines name line with
  | false =>
    rw [editLine_of_not_defines hname, editLine_of_not_defines (hright.trans hname)]
  | true =>
    have hother : defines other line = false :=
      eq_false_of_ne_true fun hother => hne (defines_unique hname hother)
    rw [editLine_of_not_defines hother, editLine_of_not_defines (hleft.trans hother)]

/-- A macro and the text that its definitions are to get. -/
structure NewDefinition where
  name : Text
  value : Text

/-- A line after some edits. -/
def editedLine (edits : List NewDefinition) (line : Text) : Text :=
  edits.foldl (fun line edit => editLine edit.name edit.value line) line

/-- What a line says after some edits: what the last of those that name its macro wrote. -/
def lastWritten (edits : List NewDefinition) (line : Text) : Text :=
  match edits.reverse.find? fun edit => defines edit.name line with
  | some edit => definitionMark ++ edit.name ++ ' ' :: edit.value
  | none => line

lemma editedLine_concat (edits : List NewDefinition) (edit : NewDefinition) (line : Text) :
    editedLine (edits ++ [edit]) line = editLine edit.name edit.value (editedLine edits line) :=
  List.foldl_concat ..

lemma defines_editedLine (edits : List NewDefinition) (name line : Text) :
    defines name (editedLine edits line) = defines name line := by
  induction edits using List.reverseRecOn with
  | nil => rfl
  | append_singleton edits edit ih => rw [editedLine_concat, defines_editLine, ih]

lemma editedLine_eq_lastWritten (edits : List NewDefinition) (line : Text) :
    editedLine edits line = lastWritten edits line := by
  induction edits using List.reverseRecOn with
  | nil => rfl
  | append_singleton edits edit ih =>
    have hagain := defines_editedLine edits edit.name line
    rw [editedLine_concat, lastWritten, List.reverse_concat, List.find?_cons]
    cases hdefines : defines edit.name line with
    | false =>
      rw [editLine_of_not_defines (hagain.trans hdefines), ih, lastWritten]
    | true =>
      rw [editLine_of_defines (hagain.trans hdefines)]

/-- The text of a file after some edits: every line of the source is edited, and ends alike. -/
def editedText (edits : List NewDefinition) (source : Text) : Text :=
  (Text.lines source).flatMap fun line => editedLine edits line ++ Text.crlf

lemma editedText_comm {first second : NewDefinition} (hne : first.name ≠ second.name)
    (source : Text) : editedText [first, second] source = editedText [second, first] source := by
  refine congrArg (List.flatMap · (Text.lines source)) (funext fun line => ?_)
  exact congrArg (· ++ Text.crlf) (editLine_comm hne first.value second.value line)

/-- An edit leaves no trace of one before it for the same macro. -/
lemma editedText_of_same_name {first second : NewDefinition} (heq : first.name = second.name)
    (source : Text) : editedText [first, second] source = editedText [second] source := by
  refine congrArg (List.flatMap · (Text.lines source)) (funext fun line => ?_)
  rw [editedLine, List.foldl_cons, heq]
  exact congrArg (· ++ Text.crlf) (editLine_editLine second.name first.value second.value line)

lemma editDefinitions_normalizeNewlines (name value source : Text) :
    editDefinitions name value (Text.normalizeNewlines source) =
      editDefinitions name value source := by
  rw [editDefinitions, Text.lines_normalizeNewlines, ← editDefinitions]

lemma hasDefinition_normalizeNewlines (name source : Text) :
    hasDefinition name (Text.normalizeNewlines source) = hasDefinition name source := by
  rw [hasDefinition, Text.lines_normalizeNewlines, ← hasDefinition]

/-- Edits that follow an edit find the lines that it left. -/
lemma editedText_editDefinitions (hvalue : Text.Unbroken value) (edits : List NewDefinition) :
    editedText edits (editDefinitions name value source) =
      editedText (⟨name, value⟩ :: edits) source := by
  rw [editedText, lines_editDefinitions hvalue, List.flatMap_map]
  rfl

/-- No edit changes whether there is a line to edit. -/
lemma hasDefinition_editDefinitions (hvalue : Text.Unbroken value) :
    hasDefinition other (editDefinitions name value source) = hasDefinition other source := by
  rw [hasDefinition, lines_editDefinitions hvalue, List.any_map, hasDefinition]
  exact congrArg (List.any _) (funext fun line => defines_editLine name other value line)

/-- Edited lines stay single lines. -/
lemma unbroken_editLine (hvalue : Text.Unbroken value) (hline : Text.Unbroken line) :
    Text.Unbroken (editLine name value line) := by
  cases hdefines : defines name line with
  | false => rwa [editLine_of_not_defines hdefines]
  | true =>
    have hmark : Text.Unbroken definitionMark := by decide
    have hname : Text.Unbroken name := fun c hc => hline c ((word_of_defines hdefines).2.2 c hc)
    rw [editLine_of_defines hdefines]
    exact List.forall_mem_append.2 ⟨List.forall_mem_append.2 ⟨hmark, hname⟩,
      List.forall_mem_cons.2 ⟨rfl, hvalue⟩⟩

lemma unbroken_editedLine {edits : List NewDefinition}
    (hedits : ∀ edit ∈ edits, Text.Unbroken edit.value) (hline : Text.Unbroken line) :
    Text.Unbroken (editedLine edits line) := by
  induction edits generalizing line with
  | nil => exact hline
  | cons edit rest ih =>
    obtain ⟨hedit, hrest⟩ := List.forall_mem_cons.1 hedits
    exact ih hrest (unbroken_editLine hedit hline)

/-- The lines of an edited text are those of the source, each as its last edit wrote it. -/
lemma lines_editedText {edits : List NewDefinition}
    (hedits : ∀ edit ∈ edits, Text.Unbroken edit.value) (source : Text) :
    Text.lines (editedText edits source) = (Text.lines source).map (lastWritten edits) := by
  have hunbroken : ∀ line ∈ (Text.lines source).map (editedLine edits), Text.Unbroken line := by
    intro edited hedited
    obtain ⟨line, hline, rfl⟩ := List.mem_map.1 hedited
    exact unbroken_editedLine hedits (Text.unbroken_of_mem_lines hline)
  rw [editedText, ← List.flatMap_map (g := fun line => line ++ Text.crlf),
    lines_flatMap_crlf hunbroken]
  exact List.map_congr_left fun line _ => editedLine_eq_lastWritten edits line

/-- An edited text is in an encoding that covers the source and the new text of the macro, for a
macro that is edited is named in the source. -/
lemma covers_editDefinitions {encoding : Encoding} (hsource : encoding.Covers source)
    (hvalue : encoding.Covers value) : encoding.Covers (editDefinitions name value source) := by
  have hmark : encoding.Covers definitionMark := Encoding.covers_of_ascii (by decide)
  have hcrlf : encoding.Covers ['\r', '\n'] := Encoding.covers_of_ascii (by decide)
  have hspace : encoding.Covers [' '] := Encoding.covers_of_ascii (by decide)
  intro c hc
  obtain ⟨line, hline, hc⟩ := List.mem_flatMap.1 hc
  have hown : encoding.Covers line := fun c hc => hsource c (Text.mem_of_mem_lines hline hc)
  refine Encoding.covers_append.2 ⟨?_, hcrlf⟩ c hc
  cases hdefines : defines name line with
  | false => rwa [editLine_of_not_defines hdefines]
  | true =>
    have hname : encoding.Covers name := fun c hc => hown c ((word_of_defines hdefines).2.2 c hc)
    rw [editLine_of_defines hdefines]
    exact Encoding.covers_append.2 ⟨Encoding.covers_append.2 ⟨hmark, hname⟩,
      Encoding.covers_append.2 ⟨hspace, hvalue⟩⟩

end Keyfile
