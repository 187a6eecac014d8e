import Keyfile.Directive.Pass
import Keyfile.Proofs.LineBreaks

/-!
# Texts put together

A text, a carriage return with a line feed, and a second text have the lines of both, except that
the line break makes an empty line where the first text is at the beginning of one. When no value of
several lines is left open by the first text, the statements of both are those of the first and then
those of the second, further down; and a pass over them is a pass over the first and then over the
second.
-/

namespace Keyfile

namespace Text

variable {t : Text}

lemma lines_ne_nil (h : t ≠ []) : lines t ≠ [] := by
  fun_cases lines t with
  | case1 => exact absurd rfl h
  | case2 => simp
  | case3 => simp
  | case4 => simp
  | case5 => simp

/-- A line break goes on with no other one that stands in what is put behind the text. -/
lemma lines_break_append_crlf {c : Char} (hc : isLineBreak c)
    (h : ∀ tail, c = '\r' → t = '\n' :: tail → False) (rest : Text) :
    lines (c :: t ++ (crlf ++ rest)) = [] :: lines (t ++ (crlf ++ rest)) := by
  apply lines_cons_of_break hc
  rintro rfl
  cases t with
  | nil => simp [crlf]
  | cons d t =>
    intro hhead
    obtain rfl : d = '\n' := by simpa using hhead
    exact h t rfl rfl

lemma lines_cons_append {c : Char} (hc : isLineBreak c = false) (ht : t ≠ []) {rest : Text}
    (h : lines (t ++ rest) = lines t ++ lines rest) :
    lines (c :: t ++ rest) = lines (c :: t) ++ lines rest := by
  obtain ⟨line, others, hlines⟩ := List.exists_cons_of_ne_nil (lines_ne_nil ht)
  rw [List.cons_append, lines_cons_of_solid hc, lines_cons_of_solid hc, h, hlines]
  rfl

/-- The line break after a text keeps its lines apart from those of the next one. -/
lemma lines_append_crlf_append (t rest : Text) :
    lines (t ++ crlf ++ rest) = lines (t ++ crlf) ++ lines rest := by
  have hne : ∀ t : Text, t ++ crlf ≠ [] := by simp [crlf]
  fun_induction lines t with
  | case1 => rfl
  | case2 t ih => exact congrArg ([] :: ·) ih
  | case3 c t hcrlf hc ih =>
    have hlast := lines_break_append_crlf hc hcrlf []
    rw [List.append_nil] at hlast
    rw [List.append_assoc, lines_break_append_crlf hc hcrlf, ← List.append_assoc, ih, hlast]
    rfl
  | case4 c t hcrlf hc hnil ih =>
    exact lines_cons_append (eq_false_of_ne_true hc) (hne t) ih
  | case5 c t hcrlf hc line others hlines ih =>
    exact lines_cons_append (eq_false_of_ne_true hc) (hne t) ih

/-- The line break after a text opens no line, unless the text stands at the beginning of one. -/
lemma lines_append_crlf_cases (t : Text) :
    lines (t ++ crlf) = lines t ∨ lines (t ++ crlf) = lines t ++ [[]] := by
  fun_induction lines t with
  | case1 => exact .inr rfl
  | case2 t ih => exact ih.imp (congrArg ([] :: ·)) (congrArg ([] :: ·))
  | case3 c t hcrlf hc ih =>
    have hlast := lines_break_append_crlf hc hcrlf []
    rw [List.append_nil] at hlast
    rw [hlast]
    exact ih.imp (congrArg ([] :: ·)) (congrArg ([] :: ·))
  | case4 c t hcrlf hc hnil ih =>
    obtain rfl : t = [] := by
      by_contra hne
      exact lines_ne_nil hne hnil
    exact .inl (lines_cons_of_solid (eq_false_of_ne_true hc) crlf)
  | case5 c t hcrlf hc line others hlines ih =>
    rw [List.cons_append, lines_cons_of_solid (eq_false_of_ne_true hc)]
    rcases ih with ih | ih
    · left
      rw [ih, hlines]
    · right
      rw [ih, hlines]
      rfl

end Text

/-- Whether a line opens a value of several lines. -/
def opensValue (line : Text) : Bool :=
  match Statement.Line.ofText (Text.trim line) with
  | .opening _ _ => true
  | .nothing | .statement _ => false

/-- Whether a value of several lines is open after some lines; the flag tells whether one is open
before them. -/
def leavesOpen : Bool → List Text → Bool
  | isOpen, [] => isOpen
  | true, line :: rest => leavesOpen (!blockEnd.isPrefixOf (Text.trim line)) rest
  | false, line :: rest => leavesOpen (opensValue line) rest

/-- Every value of several lines is closed by a line of the text. -/
def ValuesClosed (text : Text) : Prop :=
  leavesOpen false (Text.lines text) = false

instance (text : Text) : Decidable (ValuesClosed text) :=
  inferInstanceAs (Decidable (_ = _))

lemma leavesOpen_append (isOpen : Bool) (lines rest : List Text) :
    leavesOpen isOpen (lines ++ rest) = leavesOpen (leavesOpen isOpen lines) rest := by
  induction lines generalizing isOpen with
  | nil => rfl
  | cons line lines ih => cases isOpen <;> exact ih _

/-- Gathering begins anew after lines that leave no value open. -/
lemma gather_append {state : Option OpenValue} {number : Nat} {lines : List Text} (rest : List Text)
    (h : leavesOpen state.isSome lines = false) :
    gather state number (lines ++ rest) =
      gather state number lines ++ gather none (number + lines.length) rest := by
  -- what is left open changes from line to line, and the hypothesis with it
  fun_induction gather state number lines with
  | case1 number => rfl
  | case2 value number => cases h
  | case3 value number line lines trimmed hend ih =>
    have hend : blockEnd.isPrefixOf (Text.trim line) = true := hend
    rw [Option.isSome_some, leavesOpen, hend] at h
    rw [List.cons_append, gather, if_pos hend, ih h, List.length_cons, List.cons_append]
    simp only [Nat.add_assoc, Nat.add_comm 1]
  | case4 value number line lines trimmed hinside ih =>
    have hinside : ¬blockEnd.isPrefixOf (Text.trim line) = true := hinside
    rw [Option.isSome_some, leavesOpen, eq_false_of_ne_true hinside] at h
    rw [List.cons_append, gather, if_neg hinside, ih h, List.length_cons]
    simp only [Nat.add_assoc, Nat.add_comm 1]
  | case5 number line lines hnothing ih =>
    rw [Option.isSome_none, leavesOpen, opensValue, hnothing] at h
    rw [List.cons_append, gather, hnothing]
    dsimp only
    rw [ih h, List.length_cons]
    simp only [Nat.add_assoc, Nat.add_comm 1]
  | case6 number line lines statement hstatement ih =>
    rw [Option.isSome_none, leavesOpen, opensValue, hstatement] at h
    rw [List.cons_append, gather, hstatement]
    dsimp only
    rw [ih h, List.length_cons, List.cons_append]
    simp only [Nat.add_assoc, Nat.add_comm 1]
  | case7 number line lines key first hopening ih =>
    rw [Option.isSome_none, leavesOpen, opensValue, hopening] at h
    rw [List.cons_append, gather, hopening]
    dsimp only
    rw [ih h, List.length_cons]
    simp only [Nat.add_assoc, Nat.add_comm 1]

/-- A statement some lines further down. -/
def Statement.below (lines : Nat) (numbered : Nat × Statement) : Nat × Statement :=
  (numbered.1 + lines, numbered.2)

def OpenValue.below (lines : Nat) (value : OpenValue) : OpenValue :=
  { value with line := value.line + lines }

/-- Lines that stand further down make the same statements there. -/
lemma gather_below (shift : Nat) (state : Option OpenValue) (number : Nat) (lines : List Text) :
    gather (state.map (OpenValue.below shift)) (number + shift) lines =
      (gather state number lines).map (Statement.below shift) := by
  fun_induction gather state number lines with
  | case1 number => rfl
  | case2 value number => rfl
  | case3 value number line lines trimmed hend ih =>
    have hend : blockEnd.isPrefixOf (Text.trim line) = true := hend
    rw [Option.map_some, gather, if_pos hend, Nat.add_right_comm]
    exact congrArg (_ :: ·) ih
  | case4 value number line lines trimmed hinside ih =>
    have hinside : ¬blockEnd.isPrefixOf (Text.trim line) = true := hinside
    rw [Option.map_some, gather, if_neg hinside, Nat.add_right_comm]
    exact ih
  | case5 number line lines hnothing ih =>
    rw [Option.map_none, gather, hnothing, Nat.add_right_comm]
    exact ih
  | case6 number line lines statement hstatement ih =>
    rw [Option.map_none, gather, hstatement, Nat.add_right_comm]
    exact congrArg (_ :: ·) ih
  | case7 number line lines key first hopening ih =>
    rw [Option.map_none, gather, hopening, Nat.add_right_comm]
    exact ih

/-- How many lines a text takes when another one follows it. -/
def lineCount (text : Text) : Nat :=
  (Text.lines (text ++ Text.crlf)).length

/-- The statements of two texts, the first of which leaves no value open. -/
theorem statements_append {first : Text} (h : ValuesClosed first) (second : Text) :
    statements (first ++ Text.crlf ++ second) =
      statements first ++ (statements second).map (Statement.below (lineCount first)) := by
  have hclosed : leavesOpen (none : Option OpenValue).isSome (Text.lines first) = false := h
  have hfirst : gather none 1 (Text.lines (first ++ Text.crlf)) = statements first ∧
      leavesOpen (none : Option OpenValue).isSome (Text.lines (first ++ Text.crlf)) = false := by
    rcases Text.lines_append_crlf_cases first with heq | heq
    · rw [heq]
      exact ⟨rfl, hclosed⟩
    · constructor
      · rw [heq, gather_append _ hclosed]
        exact List.append_nil _
      · rw [heq, leavesOpen_append, hclosed]
        rfl
  have hsecond := gather_below (lineCount first) none 1 (Text.lines second)
  rw [statements, Text.lines_append_crlf_append, gather_append _ hfirst.2, hfirst.1, statements,
    statements, ← hsecond]
  rfl

lemma Pass.run_append {m : Type → Type} [Monad m] [LawfulMonad m] [Journal m] (external : Source m)
    (first second : List (Nat × Statement)) (pass : Pass) :
    Pass.run external (first ++ second) pass =
      Pass.run external first pass >>= Pass.run external second := by
  induction first generalizing pass with
  | nil => rw [List.nil_append, Pass.run, pure_bind]
  | cons numbered first ih =>
    obtain ⟨line, statement⟩ := numbered
    rw [List.cons_append, Pass.run, Pass.run, bind_assoc]
    exact bind_congr ih

end Keyfile
