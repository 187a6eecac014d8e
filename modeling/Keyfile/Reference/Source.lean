import Keyfile.Table

/-!
# Sources of values

A source answers names with values. Its answers may have effects in the monad `m`, so that a source
can count its questions or look at the machine; a table is a source without effects. A source lists
the finitely many names, in lower case, that it can have an answer for.
-/

namespace Keyfile

/-- Answers to names, with effects in `m`. -/
structure Source (m : Type → Type) where
  /-- The names, in lower case, that can have an answer. -/
  names : List Text
  /-- The value of a name, `none` when it is unknown. -/
  ask : Text → m (Option Text)

namespace Source

variable {m : Type → Type} [Monad m]

def silent : Source m :=
  ⟨[], fun _ => pure none⟩

def ofTable (table : Table) : Source m :=
  ⟨table.keys, fun name => pure (table.get? name)⟩

/-- The answer of the first source, and of the second one where the first has none. -/
def orElse (first second : Source m) : Source m where
  names := first.names ++ second.names
  ask name := do
    match ← first.ask name with
    | some value => return some value
    | none => second.ask name

def chain (sources : List (Source m)) : Source m :=
  sources.foldr orElse silent

end Source

end Keyfile
