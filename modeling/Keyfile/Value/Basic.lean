import Keyfile.Number.Shortest
import Keyfile.Value.Address
import Keyfile.Value.Binding
import Keyfile.Value.Catalogue
import Keyfile.Value.Custom
import Keyfile.Value.Duration
import Keyfile.Value.Enumeration
import Keyfile.Value.Octets
import Keyfile.Value.Uuid

/-!
# Typed values

The values that a configuration can be asked for, and the text in which each is stored.
-/

namespace Keyfile

inductive Value
  | absent
  | boolean (value : Bool)
  | text (value : Text)
  | integer (value : Int)
  | float (value : Binary64)
  | duration (value : Duration)
  | address (value : Address)
  | binding (value : Binding)
  | uuid (value : Uuid)
  | octets (value : Octets)
  /-- A member of an enumeration, by its proper name. -/
  | member (enumeration : Enumeration) (name : Text)
  | type (value : TypeName)
  | custom (object : Custom)
  | list
  deriving DecidableEq, Repr

namespace Value

def stored : Value → Text
  | absent => "None".toList
  | boolean true => "true".toList
  | boolean false => "false".toList
  | text t => t
  | integer n => Text.ofInt n
  | float x => x.text
  | duration d => d.text
  | address a => a.text
  | binding b => b.text
  | uuid u => u.text
  | octets o => o.text
  | member _ name => name
  | type t => t.text
  | custom object => object.text
  | list => "[]".toList

end Value

end Keyfile
