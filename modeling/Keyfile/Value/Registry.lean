import Keyfile.Value.Custom

/-!
# What texts can name

A text can name types, services and objects that are known outside of the configuration: in the
modules of the program, in the tables of the machine, and by the parsers of custom types.
-/

namespace Keyfile

/-- The types that can be found, the ports of services, and the parsers of custom objects. -/
structure Registry where
  catalogue : Catalogue := []
  /-- The port of a service, by its name in lower case. -/
  service? : Text → Option Int := fun _ => none
  /-- How new objects of a type parse a text, when they can. -/
  tryParse? : TypeName → Option (Text → Attempt) := fun _ => none
  deriving Inhabited

end Keyfile
