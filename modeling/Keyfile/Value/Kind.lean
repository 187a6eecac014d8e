import Keyfile.Value.Basic
import Keyfile.Value.Boolean
import Keyfile.Value.Integer
import Keyfile.Value.Registry
import Keyfile.Value.Uri

/-!
# Kinds of values

A kind tells how a text is read as a value. Reading gives nothing when the text denotes no value of
the kind; then, as for a missing text, the default is taken. The kind can also be that of the
default.
-/

namespace Keyfile

/-- How a text is read. -/
inductive Kind
  | text
  | boolean
  | integer (width : Width)
  | float
  | duration
  | address
  | binding
  | uuid
  | uri
  | octets
  | enumeration (members : Enumeration)
  | type
  | custom (type : TypeName)
  deriving DecidableEq, Repr

/-- What a new object of a type makes of a text: itself, nothing, or an error when its type has no
parser. -/
def Registry.readObject (registry : Registry) (type : TypeName) (t : Text) :
    Except ValueError (Option Custom) :=
  match registry.tryParse? type with
  | none => .error (.typeUnreadable type.simpleName)
  | some tryParse =>
    match tryParse t with
    | .parsed object => .ok (some object)
    | .declined | .failed => .ok none
    | .escaped message => .error (.attemptEscaped message)

namespace Kind

/-- The kind of a default; a plain integer is read with 64 bits, and a member of an enumeration of
texts as a text. -/
def ofDefault (registry : Registry) : Value → Except ValueError Kind
  | .absent | .text _ => .ok .text
  | .boolean _ => .ok .boolean
  | .integer _ => .ok (.integer .bits64)
  | .float _ => .ok .float
  | .duration _ => .ok .duration
  | .address _ => .ok .address
  | .binding _ => .ok .binding
  | .uuid _ => .ok .uuid
  | .octets _ => .ok .octets
  | .member members _ => .ok (if members.areTexts then .text else .enumeration members)
  | .type _ => .ok .type
  | .custom object =>
    if (registry.tryParse? object.type).isSome then .ok (.custom object.type)
    else .error (.typeUnsupported object.type.simpleName)
  | .list => .error (.typeUnsupported "list".toList)

/-- The value that is taken for a missing text when no other is wanted: nothing, but zero or no for
kinds of plain data. -/
def defaultValue : Kind → Value
  | .boolean => .boolean false
  | .integer _ => .integer 0
  | .float => .float ⟨0⟩
  | .duration => .duration ⟨0⟩
  | _ => .absent

def read (registry : Registry) (kind : Kind) (t : Text) : Except ValueError (Option Value) :=
  match kind with
  | .text => .ok (some (.text t))
  | .boolean => .ok ((Boolean.ofText? t).map .boolean)
  | .integer width => do return (← width.read t).map .integer
  | .float => .ok ((Binary64.ofText? t).map .float)
  | .duration => do return (← Duration.read t).map .duration
  | .address => .ok ((Address.ofText? (Text.trim t)).map .address)
  | .binding =>
    match Binding.readAmong registry.service? t with
    | .ok value => .ok (some (.binding value))
    | .error _ => .ok none
  | .uuid => .ok ((Uuid.ofText? (Text.trim t)).map .uuid)
  | .uri => .ok ((Uri.ofText? t).map .text)
  | .octets => .ok ((Octets.ofText? (Text.trim t)).map .octets)
  | .enumeration members => .ok ((members.ofText? t).map (.member members))
  | .type => .ok ((registry.catalogue.find? t).map fun entry => .type entry.type)
  | .custom typeName => do return (← registry.readObject typeName t).map .custom

/-- The value of the kind that a text stands for, the default when there is none. -/
def parse (registry : Registry) (kind : Kind) (t : Option Text) (default : Value) :
    Except ValueError Value :=
  match t with
  | none => .ok default
  | some t => do return (← kind.read registry t).getD default

end Kind

def parseAs (registry : Registry) (t : Option Text) (default : Value) :
    Except ValueError Value := do
  (← Kind.ofDefault registry default).parse registry t default

end Keyfile
