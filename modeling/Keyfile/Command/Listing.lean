import Keyfile.Configuration.Saved
import Keyfile.Record

/-!
# Listings

The entries of a configuration are listed as lines that can be loaded again, or as a JSON object
with an indented line for each entry.
-/

namespace Keyfile.Command

def plainListing (entries : Record) : Text :=
  Text.join ['\n'] (entries.flatMap entryLines)

/-- A character inside a JSON string: quotation marks, backslashes and control characters of ASCII
are escaped. -/
def jsonChar (c : Char) : Text :=
  match c with
  | '"' => ['\\', '"']
  | '\\' => ['\\', '\\']
  | '\n' => ['\\', 'n']
  | '\r' => ['\\', 'r']
  | '\t' => ['\\', 't']
  | '\x0c' => ['\\', 'f']
  | '\x08' => ['\\', 'b']
  | c => if c.toNat < 0x20 then ['\\', 'u'] ++ Text.hexDigits 4 c.toNat else [c]

def jsonString (t : Text) : Text :=
  '"' :: t.flatMap jsonChar ++ ['"']

def jsonListing (entries : Record) : Text :=
  let line (entry : Text × Text) : Text :=
    [' ', ' '] ++ jsonString entry.1 ++ [':', ' '] ++ jsonString entry.2
  match entries with
  | [] => ['\x7b', '\x7d']
  | entries =>
    ['\x7b', '\n'] ++ Text.join [',', '\n'] (entries.map line) ++ ['\n', '\x7d']

end Keyfile.Command
