import Keyfile.Text.Basic

/-!
# Forms of references

A reference to a name is written `%name%` or `$(name)`. Reading a text in one form cuts it from
left to right into plain parts and references: a reference runs from an opener to the next closer,
and what follows the last complete reference is plain. Putting the segments back together gives
the text again (`source_segments`), whatever openers and closers it holds.
-/

namespace Keyfile

/-- The two ways to write a reference. -/
inductive Form
  | percent
  /-- A name between parentheses after a dollar sign. -/
  | dollar
  deriving DecidableEq, Repr

/-- A part of a text that is read in one form. -/
inductive Segment
  | plain (text : Text)
  /-- A reference to a name, which may be empty. -/
  | reference (name : Text)
  deriving DecidableEq, Repr

/-- What is left after the first occurrence of a mark is no longer than the text without it. -/
theorem Text.length_of_cutFirst {mark t before after : Text}
    (h : Text.cutFirst mark t = some (before, after)) :
    after.length + mark.length ≤ t.length := by
  induction t generalizing before after with
  | nil =>
    simp only [Text.cutFirst] at h
    split at h <;> simp_all
  | cons c rest ih =>
    simp only [Text.cutFirst] at h
    split at h
    · rename_i hp
      have := (List.isPrefixOf_iff_prefix.1 hp).length_le
      simp only [Option.some.injEq, Prod.mk.injEq] at h
      obtain ⟨-, rfl⟩ := h
      simp only [List.length_drop, List.length_cons] at this ⊢
      omega
    · simp only [Option.map_eq_some_iff, Prod.mk.injEq, Prod.exists] at h
      obtain ⟨b, a, hb, -, rfl⟩ := h
      have := ih hb
      simp only [List.length_cons]
      omega

/-- A text is what stands before the first occurrence of a mark, the mark, and what follows. -/
theorem Text.eq_of_cutFirst {mark t before after : Text}
    (h : Text.cutFirst mark t = some (before, after)) : t = before ++ mark ++ after := by
  induction t generalizing before after with
  | nil =>
    simp only [Text.cutFirst] at h
    split at h <;> simp_all
  | cons c rest ih =>
    simp only [Text.cutFirst] at h
    split at h
    · rename_i hp
      simp only [Option.some.injEq, Prod.mk.injEq] at h
      obtain ⟨rfl, rfl⟩ := h
      simpa using (List.prefix_iff_eq_append.1 (List.isPrefixOf_iff_prefix.1 hp)).symm
    · simp only [Option.map_eq_some_iff, Prod.mk.injEq, Prod.exists] at h
      obtain ⟨b, a, hb, rfl, rfl⟩ := h
      simp [ih hb]

namespace Form

def opener : Form → Text
  | percent => ['%']
  | dollar => ['$', '(']

def closer : Form → Text
  | percent => ['%']
  | dollar => [')']

theorem length_opener_pos (form : Form) : 0 < form.opener.length := by
  cases form <;> simp [opener]

def segments (form : Form) (t : Text) : List Segment :=
  match _h : Text.cutFirst form.opener t with
  | none => [.plain t]
  | some (before, rest) =>
    match _h' : Text.cutFirst form.closer rest with
    | none => [.plain t]
    | some (name, after) => .plain before :: .reference name :: segments form after
termination_by t.length
decreasing_by
  have h₁ := Text.length_of_cutFirst _h
  have h₂ := Text.length_of_cutFirst _h'
  have h₃ := form.length_opener_pos
  omega

def written (form : Form) (name : Text) : Text :=
  form.opener ++ name ++ form.closer

def source (form : Form) : Segment → Text
  | .plain t => t
  | .reference name => form.written name

/-- Reading loses no character: the segments make up the text. -/
theorem source_segments (form : Form) (t : Text) :
    (form.segments t).flatMap form.source = t := by
  fun_induction segments form t with
  | case1 t h => simp [source]
  | case2 t before rest h h' => simp [source]
  | case3 t before rest h name after h' ih =>
    rw [Text.eq_of_cutFirst h, Text.eq_of_cutFirst h']
    simp [source, written, ih]

def occursIn (form : Form) (t : Text) : Bool :=
  Text.includes form.opener t

end Form

def hasReferences (t : Text) : Bool :=
  Form.percent.occursIn t || Form.dollar.occursIn t

end Keyfile
