import Keyfile.LoadError
import Keyfile.Text.Blank
import Keyfile.Text.Case

/-!
# References to keys

A value of the form `[config:key]` or `[config:key,default]` refers to a key of a configuration.
-/

namespace Keyfile

/-- A reference to a key, with the text that counts when the key is missing. -/
structure KeyReference where
  key : Text
  default : Option Text
  deriving DecidableEq, Repr

namespace KeyReference

def mark : Text :=
  "[config:".toList

/-- The reference that a text is, none when the text is a plain value. -/
def read (t : Text) : Except FormatCause (Option KeyReference) :=
  if t.head? = some '[' && t.getLast? = some ']' && mark.isPrefixOf (Text.lower t) then
    let body := (t.drop mark.length).dropLast
    let (key, default) :=
      match Text.cutAt ',' body with
      | none => (Text.trim body, none)
      | some (key, default) => (Text.trim key, some (Text.trim default))
    if key = [] then .error (.referenceWithoutKey t) else .ok (some ⟨key, default⟩)
  else .ok none

end KeyReference

end Keyfile
