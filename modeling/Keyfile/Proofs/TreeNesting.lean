import Keyfile.Proofs.Nesting
import Keyfile.Proofs.Tree
import Mathlib.Tactic.Common

/-!
# Trees of well nested texts

The statements of a well nested text make trees. While the statements are read, the blocks that are
open in front of them say which boundaries are left over behind them.
-/

namespace Keyfile.Tree

/-- The first boundary is a directive of the given word, followed by the given trees. -/
def Ends (word : Directive) (after : List Tree) (rest boundaries : List Boundary) : Prop :=
  ∃ line argument, boundaries = ⟨line, word, argument, after⟩ :: rest

/-- The boundaries of a conditional lead through its second body, which may be missing, to what
follows its end. -/
def Closes (second after : List Tree) (rest boundaries : List Boundary) : Prop :=
  (second = [] ∧ Ends .ifEnd after rest boundaries) ∨
    ∃ inner, Ends .ifElse second inner boundaries ∧ Ends .ifEnd after rest inner

/-- The boundaries close the open blocks from the innermost on. -/
def CloseAll : List Opening → List Boundary → Prop
  | [], boundaries => boundaries = []
  | .conditional _ false :: outer, boundaries => ∃ second after rest,
      Closes second after rest boundaries ∧ CloseAll outer rest
  | .conditional _ true :: outer, boundaries => ∃ after rest,
      Ends .ifEnd after rest boundaries ∧ CloseAll outer rest
  | .choice _ false :: outer, boundaries => ∃ labelled other after rest,
      choices? boundaries = some (labelled, other, after, rest) ∧ CloseAll outer rest
  | .choice _ true :: outer, boundaries => ∃ after rest,
      Ends .switchEnd after rest boundaries ∧ CloseAll outer rest
  | .scope _ :: outer, boundaries => ∃ after rest,
      Ends .sectionEnd after rest boundaries ∧ CloseAll outer rest

/-- A directive that fits reads with what follows it when what follows closes the blocks that the
directive leaves open. -/
lemma direct?_of_next {line : Nat} {argument : Text} {word : Directive}
    {openings next : List Opening} (trees : List Tree) {boundaries : List Boundary}
    (hnext : Nesting.direct line argument openings word = some next)
    (hclose : CloseAll next boundaries) :
    ∃ trees' boundaries', direct? line argument trees boundaries word = some (trees', boundaries') ∧
      CloseAll openings boundaries' := by
  cases word with
  | define | set | undefine =>
    obtain rfl : openings = next := by simpa [Nesting.direct] using hnext
    exact ⟨_, _, rfl, hclose⟩
  | ifBegin =>
    obtain rfl : .conditional line false :: openings = next := by
      simpa [Nesting.direct] using hnext
    obtain ⟨second, after, rest, hcloses, hrest⟩ := hclose
    rcases hcloses with ⟨rfl, _, _, rfl⟩ | ⟨_, ⟨_, _, rfl⟩, _, _, rfl⟩
    · exact ⟨_, _, rfl, hrest⟩
    · exact ⟨_, _, rfl, hrest⟩
  | ifElse =>
    simp only [Nesting.direct] at hnext
    split at hnext
    · obtain rfl : _ = next := by simpa using hnext
      obtain ⟨after, rest, hends, hrest⟩ := hclose
      exact ⟨_, _, rfl, trees, after, rest, .inr ⟨boundaries, ⟨_, _, rfl⟩, hends⟩, hrest⟩
    · simp at hnext
  | ifEnd =>
    simp only [Nesting.direct] at hnext
    split at hnext
    · rename_i begun inElse rest
      obtain rfl : rest = next := by simpa using hnext
      cases inElse with
      | false => exact ⟨_, _, rfl, [], trees, boundaries, .inl ⟨rfl, _, _, rfl⟩, hclose⟩
      | true => exact ⟨_, _, rfl, trees, boundaries, ⟨_, _, rfl⟩, hclose⟩
    · simp at hnext
  | switchBegin =>
    simp only [Nesting.direct] at hnext
    split at hnext
    · simp at hnext
    · rename_i hargument
      obtain rfl : _ = next := by simpa using hnext
      obtain ⟨labelled, other, after, rest, hchoices, hrest⟩ := hclose
      exact ⟨.choice argument labelled other :: after, rest,
        by simp [direct?, hargument, hchoices], hrest⟩
  | switchCase =>
    simp only [Nesting.direct] at hnext
    split at hnext
    · obtain rfl : _ = next := by simpa using hnext
      obtain ⟨labelled, other, after, rest, hchoices, hrest⟩ := hclose
      exact ⟨_, _, rfl, (argument, trees) :: labelled, other, after, rest,
        by simp [choices?, hchoices], hrest⟩
    · simp at hnext
  | switchDefault =>
    simp only [Nesting.direct] at hnext
    split at hnext
    · obtain rfl : _ = next := by simpa using hnext
      obtain ⟨after, rest, ⟨_, _, rfl⟩, hrest⟩ := hclose
      exact ⟨_, _, rfl, [], trees, after, rest, by simp [choices?], hrest⟩
    · simp at hnext
  | switchEnd =>
    simp only [Nesting.direct] at hnext
    split at hnext
    · rename_i begun hasDefault rest
      obtain rfl : rest = next := by simpa using hnext
      cases hasDefault with
      | false => exact ⟨_, _, rfl, [], [], trees, boundaries, by simp [choices?], hclose⟩
      | true => exact ⟨_, _, rfl, trees, boundaries, ⟨_, _, rfl⟩, hclose⟩
    · simp at hnext
  | sectionBegin =>
    simp only [Nesting.direct] at hnext
    split at hnext
    · simp at hnext
    · rename_i hname
      obtain rfl : _ = next := by simpa using hnext
      obtain ⟨after, rest, ⟨_, _, rfl⟩, hrest⟩ := hclose
      exact ⟨.scope argument trees :: after, rest, by
        rw [direct?, if_neg hname], hrest⟩
  | sectionEnd =>
    simp only [Nesting.direct] at hnext
    split at hnext
    · obtain rfl : _ = next := by simpa using hnext
      exact ⟨_, _, rfl, trees, boundaries, ⟨_, _, rfl⟩, hclose⟩
    · simp at hnext

/-- Statements that break the nesting nowhere read as trees, with boundaries that close the blocks
that are open in front of them. -/
lemma read?_of_fault? {openings : List Opening} {numbered : List (Nat × Statement)}
    (hfault : Nesting.fault? openings numbered = none) :
    ∃ trees boundaries, read? numbered = some (trees, boundaries) ∧
      CloseAll openings boundaries := by
  induction numbered generalizing openings with
  | nil =>
    cases openings with
    | nil => exact ⟨[], [], rfl, rfl⟩
    | cons opening outer => simp [Nesting.fault?] at hfault
  | cons head rest ih =>
    obtain ⟨line, statement⟩ := head
    simp only [Nesting.fault?] at hfault
    split at hfault
    · simp at hfault
    · rename_i next hnext
      obtain ⟨trees, boundaries, hread, hclose⟩ := ih hfault
      cases statement with
      | entry key value =>
        obtain rfl : openings = next := by simpa [Nesting.next] using hnext
        exact ⟨.entry key value :: trees, boundaries, by simp [read?, hread], hclose⟩
      | directive word argument =>
        obtain ⟨trees', boundaries', hdirect, hclose'⟩ := direct?_of_next trees hnext hclose
        exact ⟨trees', boundaries', by simp [read?, hread, hdirect], hclose'⟩
      | unknown text => simp [Nesting.next] at hnext

theorem read?_of_wellNested {text : Text} (hnested : Nesting.WellNested text) :
    ∃ trees, read? (statements text) = some (trees, []) := by
  obtain ⟨trees, boundaries, hread, hclose⟩ := read?_of_fault? hnested
  obtain rfl : boundaries = [] := hclose
  exact ⟨trees, hread⟩

end Keyfile.Tree
