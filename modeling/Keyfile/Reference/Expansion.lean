import Keyfile.Reference.Form
import Keyfile.Reference.Source

/-!
# Expansion of references

Expanding a text replaces each reference whose name has a value by the expansion of that value,
first for the names between percent signs, then, in the text so obtained, for the names between
parentheses. A reference without a value stays as it is written. A name that comes up again within
the expansion of its own value is a cycle, which ends the expansion.

Only names that a source lists can have a value, and none of them is expanded within itself, so
the nesting of expansions is bounded by the number of listed names. It is bounded by a fixed limit
as well: within too many active names no further name is resolved, and the expansion fails.
-/

namespace Keyfile

/-- What ends an expansion without a text. -/
inductive ExpansionError
  /-- A name came up within its own expansion, as it was spelled there. -/
  | cycle (name : Text)
  /-- A name was to be resolved within too many others. -/
  | tooDeep
  deriving DecidableEq, Repr

/-- The number of active names within which no further name is resolved. -/
def nestingLimit : Nat := 331

variable {m : Type → Type} [Monad m]

namespace Form

/-- The text of a segment: a plain part is kept, a reference with a value is replaced by it, and
any other reference stays as it is written. -/
def substitute (form : Form) (value : Text → m (Option Text)) : Segment → m Text
  | .plain t => pure t
  | .reference name =>
    if name = [] then pure (form.written name)
    else do
      match ← value name with
      | some t => return t
      | none => return form.written name

def replace (form : Form) (value : Text → m (Option Text)) (t : Text) : m Text := do
  return (← (form.segments t).mapM (form.substitute value)).flatten

end Form

/-- Adding a listed name to the active ones leaves fewer listed names that are not active. -/
theorem countP_notMem_cons_lt {names active : List Text} {key : Text}
    (hlisted : key ∈ names) (hidle : key ∉ active) :
    names.countP (· ∉ key :: active) < names.countP (· ∉ active) := by
  induction names with
  | nil => simp at hlisted
  | cons name rest ih =>
    have hle : rest.countP (· ∉ key :: active) ≤ rest.countP (· ∉ active) :=
      List.countP_mono_left fun x _ hx => by simp_all
    by_cases hname : name = key
    · subst hname
      simp only [List.countP_cons, List.mem_cons, true_or, not_true_eq_false, decide_false,
        hidle, not_false_eq_true, decide_true, if_true]
      simpa using Nat.lt_succ_of_le hle
    · have hrest : key ∈ rest := by
        rcases List.mem_cons.1 hlisted with h | h
        · exact absurd h.symm hname
        · exact h
      have hlt := ih hrest
      have hsame : (name ∉ key :: active) ↔ (name ∉ active) := by simp [hname]
      simp only [List.countP_cons, hsame]
      omega

def expandWithin (source : Source m) (active : List Text) (t : Text) :
    ExceptT ExpansionError m Text := do
  let value (name : Text) : ExceptT ExpansionError m (Option Text) :=
    let key := Text.lower name
    if _hactive : key ∈ active then throw (.cycle name)
    else if nestingLimit ≤ active.length then throw .tooDeep
    else if _hlisted : key ∈ source.names then do
      match ← source.ask name with
      | none => return none
      | some raw => return some (← expandWithin source (key :: active) raw)
    else return none
  Form.dollar.replace value (← Form.percent.replace value t)
termination_by source.names.countP (· ∉ active)
decreasing_by exact countP_notMem_cons_lt _hlisted _hactive

/-- The text with every reference to a name with a value replaced by that value's expansion. -/
def expand (source : Source m) (t : Text) : ExceptT ExpansionError m Text :=
  expandWithin source [] t

end Keyfile
