import Keyfile.Reference.Expansion
import Mathlib.Tactic.Common

/-!
# Pieces of a text

A well formed text is put together from plain pieces and references in either form. Replacing the
references of one form works on the pieces one by one, whatever stands next to them.
-/

namespace Keyfile

/-- A plain part of a text, or a reference in one of the forms. -/
inductive Piece
  | plain (text : Text)
  | reference (form : Form) (name : Text)
  deriving DecidableEq, Repr

namespace Piece

def written : Piece → Text
  | plain text => text
  | reference form name => form.written name

def text (pieces : List Piece) : Text :=
  pieces.flatMap written

/-- Plain pieces hold no character that opens a reference, and names are not empty and hold none
that opens or closes one. -/
def Valid : Piece → Prop
  | plain text => '%' ∉ text ∧ '$' ∉ text
  | reference _ name => name ≠ [] ∧ '%' ∉ name ∧ '$' ∉ name ∧ '(' ∉ name ∧ ')' ∉ name

instance (piece : Piece) : Decidable piece.Valid := by
  cases piece <;> unfold Valid <;> infer_instance

end Piece

/-- The pieces make the text, each of them being valid. -/
structure Splits (t : Text) (pieces : List Piece) : Prop where
  valid : ∀ piece ∈ pieces, piece.Valid
  text_eq : Piece.text pieces = t

/-- A text that is put together from valid pieces. -/
def WellFormed (t : Text) : Prop :=
  ∃ pieces, Splits t pieces

namespace Text

lemma cutFirst_append_of_notMem {first : Char} {mark u : Text} (h : first ∉ u) (t : Text) :
    cutFirst (first :: mark) (u ++ t) =
      (cutFirst (first :: mark) t).map fun parts => (u ++ parts.1, parts.2) := by
  induction u with
  | nil => simp
  | cons c u ih =>
    obtain ⟨hc, hu⟩ : first ≠ c ∧ first ∉ u := by simpa using h
    simp [cutFirst, hc, ih hu, Function.comp_def]

lemma cutFirst_append_self (first : Char) (mark t : Text) :
    cutFirst (first :: mark) ((first :: mark) ++ t) = some ([], t) := by
  simp [cutFirst]

end Text

namespace Form

/-- The first character of what opens a reference. -/
def sign : Form → Char
  | percent => '%'
  | dollar => '$'

def seal_ : Form → Char
  | percent => '%'
  | dollar => ')'

lemma opener_eq (form : Form) : form.opener = form.sign :: form.opener.tail := by
  cases form <;> rfl

lemma closer_eq (form : Form) : form.closer = [form.seal_] := by
  cases form <;> rfl

lemma segments_of_no_opener {form : Form} {t : Text} (h : Text.cutFirst form.opener t = none) :
    form.segments t = [.plain t] := by
  unfold segments
  split <;> simp_all

lemma segments_of_no_closer {form : Form} {t before rest : Text}
    (h : Text.cutFirst form.opener t = some (before, rest))
    (h' : Text.cutFirst form.closer rest = none) : form.segments t = [.plain t] := by
  unfold segments
  split
  · simp_all
  · split <;> simp_all

lemma segments_of_cut {form : Form} {t before rest name after : Text}
    (h : Text.cutFirst form.opener t = some (before, rest))
    (h' : Text.cutFirst form.closer rest = some (name, after)) :
    form.segments t = .plain before :: .reference name :: form.segments after := by
  rw [segments]
  split
  · simp_all
  · split <;> simp_all

lemma segments_append (form : Form) {u : Text} (hu : form.sign ∉ u) (t : Text) :
    ∃ first rest, form.segments t = .plain first :: rest ∧
      form.segments (u ++ t) = .plain (u ++ first) :: rest := by
  have hcut : Text.cutFirst form.opener (u ++ t) =
      (Text.cutFirst form.opener t).map fun parts => (u ++ parts.1, parts.2) := by
    rw [opener_eq]
    exact Text.cutFirst_append_of_notMem hu t
  cases h : Text.cutFirst form.opener t with
  | none =>
    rw [h] at hcut
    exact ⟨t, [], segments_of_no_opener h, segments_of_no_opener hcut⟩
  | some parts =>
    obtain ⟨before, rest⟩ := parts
    rw [h] at hcut
    cases h' : Text.cutFirst form.closer rest with
    | none => exact ⟨t, [], segments_of_no_closer h h', segments_of_no_closer hcut h'⟩
    | some parts =>
      obtain ⟨name, after⟩ := parts
      exact ⟨before, _, segments_of_cut h h', segments_of_cut hcut h'⟩

/-- A reference whose name does not close it is a segment of its own. -/
lemma segments_written_append (form : Form) {name : Text} (hname : form.seal_ ∉ name) (t : Text) :
    form.segments (form.written name ++ t) =
      .plain [] :: .reference name :: form.segments t := by
  have hopener : Text.cutFirst form.opener (form.written name ++ t) =
      some ([], name ++ form.closer ++ t) := by
    rw [written, List.append_assoc, List.append_assoc, opener_eq, ← List.append_assoc name]
    exact Text.cutFirst_append_self _ _ _
  have hcloser : Text.cutFirst form.closer (name ++ form.closer ++ t) = some (name, t) := by
    rw [closer_eq, List.append_assoc, Text.cutFirst_append_of_notMem hname,
      Text.cutFirst_append_self]
    simp
  exact segments_of_cut hopener hcloser

variable {m : Type → Type} [Monad m] [LawfulMonad m]

lemma replace_append (form : Form) (value : Text → m (Option Text)) {u : Text}
    (hu : form.sign ∉ u) (t : Text) :
    form.replace value (u ++ t) = (u ++ ·) <$> form.replace value t := by
  obtain ⟨first, rest, ht, hut⟩ := segments_append form hu t
  simp [replace, ht, hut, List.mapM_cons, substitute]

lemma replace_written_append (form : Form) (value : Text → m (Option Text)) {name : Text}
    (hname : form.seal_ ∉ name) (t : Text) :
    form.replace value (form.written name ++ t) = (do
      let head ← form.substitute value (.reference name)
      (head ++ ·) <$> form.replace value t) := by
  simp [replace, segments_written_append form hname, List.mapM_cons, substitute]

end Form

/-- The scan for the percent form, and the scan for the dollar form over its result. -/
def replaceBoth {m : Type → Type} [Monad m] (value : Text → m (Option Text)) (t : Text) :
    m Text := do
  Form.dollar.replace value (← Form.percent.replace value t)

end Keyfile
