import Keyfile.Text.Blank
import Keyfile.Text.Case
import Keyfile.Value.Error

/-!
# Network bindings

A binding is a host and a port with a colon between them. A host with colons of its own stands in
brackets. The port is a number or the name of a service.
-/

namespace Keyfile

/-- A host and a port. -/
structure Binding where
  host : Text
  port : Int
  deriving DecidableEq, Repr

namespace Binding

def withoutBrackets (host : Text) : Text :=
  if host.head? = some '[' && host.getLast? = some ']' then host.tail.dropLast else host

/-- The port that a text names, by its number or as one of the services. -/
def readPortAmong (service? : Text → Option Int) (t : Text) : Except ValueError Int := do
  let port ←
    match Numeral.ofText? t with
    | some numeral => numeral.read
    | none =>
      match service? (Text.lower t) with
      | some port => .ok port
      | none => .error (.serviceUnknown t)
  if 0 ≤ port && port ≤ 65535 then return port else throw (.portOutOfRange port)

/-- The binding that a text names. -/
def readAmong (service? : Text → Option Int) (t : Text) : Except ValueError Binding :=
  match Text.cutLastAt ':' (Text.trim t) with
  | none => .error (.bindingMalformed t)
  | some (host, port) =>
    if host = [] || port = [] then .error (.bindingMalformed t)
    else do return ⟨withoutBrackets host, ← readPortAmong service? port⟩

def text (binding : Binding) : Text :=
  let host := if binding.host.contains ':' then '[' :: binding.host ++ [']'] else binding.host
  host ++ ':' :: Text.ofInt binding.port

end Binding

end Keyfile
