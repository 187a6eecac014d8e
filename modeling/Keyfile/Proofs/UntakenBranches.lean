import Keyfile.Proofs.BlockStructure
import Keyfile.Proofs.Concatenation

/-!
# Branches that are not taken

Where a text is not carried out, lines that are balanced by themselves do nothing at all: the pass
goes on from behind them as it came to them, and nothing is asked and nothing recorded on the way.
The blocks that the lines open lie on top of the pass as it was, none of them is carried out, and
each section remembers the scope that it hides.
-/

namespace Keyfile

/-- Lines among which every block and every value of several lines that is opened is closed, and
nothing else is. -/
structure Balanced (lines : List Text) : Prop where
  nested : Nesting.check? false 1 [] lines = none
  closed : leavesOpen false lines = false

namespace Pass

open Nesting

/-- A pass that idles has opened blocks since some start, and carries none of them out. What was
open at the start, the macros and the store are as they were. -/
inductive Idles (start : Pass) : List Opening → Pass → Prop
  | start : Idles start [] start
  | conditional {openings : List Opening} {pass : Pass} (h : Idles start openings pass)
      (begun : Nat) (block : IfBlock) (houter : block.outerEnabled = false) :
      Idles start (.conditional begun block.inElse :: openings) (pass.push (.ifBlock block))
  | choice {openings : List Opening} {pass : Pass} (h : Idles start openings pass)
      (begun : Nat) (block : SwitchBlock) (houter : block.outerEnabled = false)
      (hcase : block.enabled = false) :
      Idles start (.choice begun block.hasDefault :: openings) (pass.push (.switchBlock block))
  | scope {openings : List Opening} {pass : Pass} (h : Idles start openings pass)
      (begun : Nat) (block : SectionBlock) (houter : block.outerEnabled = false)
      (hscope : block.outerScope = pass.scope) (scope : Option Text) :
      Idles start (.scope begun :: openings) { pass.push (.sectionBlock block) with scope }

namespace Idles

variable {start pass : Pass} {openings after : List Opening} {line : Nat} {argument : Text}

lemma enabled_eq (hstart : start.enabled = false) (h : Idles start openings pass) :
    pass.enabled = false := by
  cases h with
  | start => exact hstart
  | conditional _ _ block houter =>
    change (block.outerEnabled && _) = false
    rw [houter, Bool.false_and]
  | choice _ _ _ _ hcase => exact hcase
  | scope _ _ _ houter => exact houter

lemma beginElse (h : Idles start openings pass)
    (hnext : Nesting.direct line argument openings .ifElse = some after) :
    ∃ next, pass.beginElse = .ok next ∧ Idles start after next := by
  cases h with
  | start | choice | scope => cases hnext
  | conditional h begun block houter =>
    obtain ⟨outerEnabled, condition, opened, inElse⟩ := block
    cases inElse with
    | true => cases hnext
    | false =>
      cases hnext
      exact ⟨_, rfl, .conditional h begun ⟨outerEnabled, condition, opened, true⟩ houter⟩

lemma endIf (h : Idles start openings pass)
    (hnext : Nesting.direct line argument openings .ifEnd = some after) :
    ∃ next, pass.endIf = .ok next ∧ Idles start after next := by
  cases h with
  | start | choice | scope => cases hnext
  | conditional h begun block houter =>
    cases hnext
    exact ⟨_, rfl, h⟩

lemma beginCase (h : Idles start openings pass)
    (hnext : Nesting.direct line argument openings .switchCase = some after) :
    ∃ next, pass.beginCase argument = .ok next ∧ Idles start after next := by
  cases h with
  | start | conditional | scope => cases hnext
  | choice h begun block houter hcase =>
    obtain ⟨outerEnabled, value, opened, matched, enabled, hasDefault⟩ := block
    obtain rfl : outerEnabled = false := houter
    cases hasDefault with
    | true => cases hnext
    | false =>
      cases hnext
      exact ⟨_, rfl, .choice h begun ⟨false, value, opened, matched || false, false, false⟩ rfl rfl⟩

lemma beginDefault (h : Idles start openings pass)
    (hnext : Nesting.direct line argument openings .switchDefault = some after) :
    ∃ next, pass.beginDefault = .ok next ∧ Idles start after next := by
  cases h with
  | start | conditional | scope => cases hnext
  | choice h begun block houter hcase =>
    obtain ⟨outerEnabled, value, opened, matched, enabled, hasDefault⟩ := block
    obtain rfl : outerEnabled = false := houter
    cases hasDefault with
    | true => cases hnext
    | false =>
      cases hnext
      exact ⟨_, rfl, .choice h begun ⟨false, value, opened, matched, false, true⟩ rfl rfl⟩

lemma endSwitch (h : Idles start openings pass)
    (hnext : Nesting.direct line argument openings .switchEnd = some after) :
    ∃ next, pass.endSwitch = .ok next ∧ Idles start after next := by
  cases h with
  | start | conditional | scope => cases hnext
  | choice h begun block houter hcase =>
    cases hnext
    exact ⟨_, rfl, h⟩

lemma beginSection (hstart : start.enabled = false) (h : Idles start openings pass) (opened : Nat)
    (hnext : Nesting.direct line argument openings .sectionBegin = some after) :
    ∃ next, pass.beginSection opened argument = .ok next ∧ Idles start after next := by
  unfold Nesting.direct at hnext
  dsimp only at hnext
  split at hnext
  · cases hnext
  · rename_i hname
    obtain ⟨hempty, hindexed⟩ : argument ≠ [] ∧ ¬Text.includes Key.autoIndex argument = true := by
      simpa using hname
    cases hnext
    refine ⟨_, (if_neg hempty).trans (if_neg hindexed), ?_⟩
    exact .scope h line ⟨pass.enabled, pass.scope, argument, opened⟩ (h.enabled_eq hstart) rfl _

/-- A section that is left gives back the scope that it hid. -/
lemma endSection (h : Idles start openings pass)
    (hnext : Nesting.direct line argument openings .sectionEnd = some after) :
    ∃ next, pass.endSection = .ok next ∧ Idles start after next := by
  cases h with
  | start | conditional | choice => cases hnext
  | scope h begun block houter hscope scope =>
    rename_i openings pass
    cases hnext
    have hended : Pass.endSection { pass.push (.sectionBlock block) with scope } =
        .ok { pass with scope := block.outerScope } := rfl
    rw [hscope] at hended
    exact ⟨pass, hended, h⟩

variable {m : Type → Type} [Monad m] [LawfulMonad m] [Journal m] (external : Source m)

/-- A directive that fits is passed over without effects: only the blocks on top can change. The
number of its line does not count. -/
lemma direct (hstart : start.enabled = false) (h : Idles start openings pass) (opened : Nat)
    {word : Directive} (hnext : Nesting.direct line argument openings word = some after) :
    ∃ next, pass.direct external opened argument word = pure next ∧ Idles start after next := by
  have henabled := h.enabled_eq hstart
  have hchecked : ∀ {result : Except FormatCause Pass},
      (∃ next, result = .ok next ∧ Idles start after next) →
        ∃ next, checked (m := m) opened result = pure next ∧ Idles start after next := by
    rintro _ ⟨next, rfl, hidles⟩
    exact ⟨next, rfl, hidles⟩
  cases word with
  | define | set | undefine =>
    cases hnext
    refine ⟨pass, ?_, h⟩
    simp [Pass.direct, henabled]
  | ifBegin =>
    cases hnext
    refine ⟨pass.push (.ifBlock ⟨false, false, opened, false⟩), ?_,
      .conditional h line ⟨false, false, opened, false⟩ rfl⟩
    simp [Pass.direct, beginIf, henabled]
  | switchBegin =>
    unfold Nesting.direct at hnext
    dsimp only at hnext
    split at hnext
    · cases hnext
    · rename_i hargument
      cases hnext
      refine ⟨pass.push (.switchBlock ⟨false, [], opened, false, false, false⟩), ?_,
        .choice h line ⟨false, [], opened, false, false, false⟩ rfl rfl⟩
      simp [Pass.direct, beginSwitch, henabled, hargument]
  | ifElse => exact hchecked (h.beginElse hnext)
  | ifEnd => exact hchecked (h.endIf hnext)
  | switchCase => exact hchecked (h.beginCase hnext)
  | switchDefault => exact hchecked (h.beginDefault hnext)
  | switchEnd => exact hchecked (h.endSwitch hnext)
  | sectionBegin => exact hchecked (h.beginSection hstart opened hnext)
  | sectionEnd => exact hchecked (h.endSection hnext)

lemma step (hstart : start.enabled = false) (h : Idles start openings pass) (opened : Nat)
    {statement : Statement} (hnext : next line openings statement = some after) :
    ∃ next, pass.step external opened statement = pure next ∧ Idles start after next := by
  cases statement with
  | entry key value =>
    cases hnext
    refine ⟨pass, ?_, h⟩
    simp [Pass.step, h.enabled_eq hstart]
  | directive word argument => exact h.direct external hstart opened hnext
  | unknown text => cases hnext

/-- Statements that close the blocks that are open since the start lead back to it, wherever in the
text they stand. -/
lemma run (hstart : start.enabled = false) (h : Idles start openings pass)
    {numbered : List (Nat × Statement)} (hfault : fault? openings numbered = none)
    (earlier : Nat) :
    Pass.run external (numbered.map (Statement.below earlier)) pass = pure start := by
  induction numbered generalizing openings pass with
  | nil =>
    cases h with
    | start => rfl
    | conditional | choice | scope => cases hfault
  | cons first rest ih =>
    obtain ⟨line, statement⟩ := first
    rw [fault?] at hfault
    cases hnext : Nesting.next line openings statement with
    | none =>
      rw [hnext] at hfault
      cases hfault
    | some after =>
      rw [hnext] at hfault
      obtain ⟨next, hstep, hidles⟩ := h.step external hstart (line + earlier) hnext
      rw [List.map_cons, Statement.below, Pass.run, hstep, pure_bind]
      exact ih hidles hfault

end Idles

/-- Balanced lines that stand below any number of others, where the text is not carried out, do
nothing: no error, no change and no effect, for instance no question to the outside. What stands
below them is carried out as if they were blank. -/
theorem run_of_balanced {m : Type → Type} [Monad m] [LawfulMonad m] [Journal m]
    (external : Source m) {start : Pass} (hstart : start.enabled = false) {lines : List Text}
    (hbalanced : Balanced lines) (earlier : Nat) :
    Pass.run external (gather none (1 + earlier) lines) start = pure start ∧
      ∀ rest, Pass.run external (gather none (1 + earlier) (lines ++ rest)) start =
        Pass.run external (gather none (1 + earlier + lines.length) rest) start := by
  have hfault : fault? [] (gather none 1 lines) = none := by
    rw [← check?_eq_fault?_gather none 1 lines []]
    exact hbalanced.nested
  have hrun : Pass.run external (gather none (1 + earlier) lines) start = pure start := by
    have hbelow : gather none (1 + earlier) lines = _ := gather_below earlier none 1 lines
    rw [hbelow]
    exact Idles.start.run external hstart hfault earlier
  refine ⟨hrun, fun rest => ?_⟩
  have hclosed : leavesOpen (none : Option OpenValue).isSome lines = false := hbalanced.closed
  rw [gather_append rest hclosed, run_append, hrun, pure_bind]

/-- Lines that would fail, or ask for identifiers, if they were carried out. -/
def deadLines : List Text :=
  ["#define loop $(loop)", "#set id %loop%$(guid)", "#define true", "#if", "#switch $(guid)",
    "#case", "k[-] = \x7b\x7b", "#endswitch", "\x7d\x7d", "#default", "#endswitch", "#else",
    "#section s", "k = 1", "#endsection", "#endif"].map String.toList

/-- A pass in the second branch of a conditional that held, inside a section. -/
def pastBranch : Pass where
  blocks := [.ifBlock ⟨true, true, 2, true⟩, .sectionBlock ⟨true, none, "s".toList, 1⟩]
  scope := some "s".toList

theorem run_deadLines_pastBranch :
    pastBranch.enabled = false ∧ Balanced deadLines ∧ ∀ world : World,
      (Pass.run (Environment.source {}) (gather none 4 deadLines) pastBranch).run.run.run world =
        (.ok (.ok pastBranch), world) := by
  have hbalanced : Balanced deadLines := ⟨by decide +kernel, by decide +kernel⟩
  have hdisabled : pastBranch.enabled = false := rfl
  refine ⟨hdisabled, hbalanced, fun world => ?_⟩
  have hrun := (run_of_balanced (Environment.source {}) hdisabled hbalanced 3).1
  rw [show gather none 4 deadLines = gather none (1 + 3) deadLines from rfl, hrun]
  rfl

end Pass

end Keyfile
