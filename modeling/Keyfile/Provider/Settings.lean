import Keyfile.Record
import Keyfile.Text.Blank

/-!
# Settings of a provider

Settings are written as `name=value` with semicolons between them. Names and values are trimmed; an
item without an equals sign or without a name is no setting.
-/

namespace Keyfile.Provider

def setting? (item : Text) : Option (Text × Text) :=
  match Text.cutAt '=' item with
  | none => none
  | some (name, value) =>
    if Text.trim name = [] then none else some (Text.trim name, Text.trim value)

def settings (t : Text) : Record :=
  .ofPairs ((Text.splitAt ';' t).filterMap setting?)

end Keyfile.Provider
