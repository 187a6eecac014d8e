import Keyfile.Text.Blank

/-!
# Catalogues of types

A catalogue tells which types can be found by the name of a module and a path in it. A text gives
both with a colon between them, or with the last period between them when it has no colon.
-/

namespace Keyfile

/-- A type by its module and its full name there. -/
structure TypeName where
  module : Text
  name : Text
  deriving DecidableEq, Repr

/-- The text of a type: its module and its name. -/
def TypeName.text (type : TypeName) : Text :=
  type.module ++ ':' :: type.name

/-- The name of a type without those of the types around it. -/
def TypeName.simpleName (type : TypeName) : Text :=
  (Text.cutLastAt '.' type.name).elim type.name (·.2)

/-- What can be found under a module and a path in it. -/
structure CatalogueEntry where
  module : Text
  path : Text
  type : TypeName
  isProvider : Bool := false
  deriving DecidableEq, Repr

/-- The types that can be found. -/
abbrev Catalogue := List CatalogueEntry

namespace Catalogue

def splitName (t : Text) : Text × Text :=
  match Text.cutAt ':' t with
  | some (module, path) => (module, path)
  | none =>
    match Text.cutLastAt '.' t with
    | some (module, path) => (module, path)
    | none => ([], t)

def find? (catalogue : Catalogue) (t : Text) : Option CatalogueEntry :=
  let (module, path) := splitName (Text.trim t)
  List.find? (fun entry => entry.module == Text.trim module && entry.path == Text.trim path)
    catalogue

end Catalogue

end Keyfile
