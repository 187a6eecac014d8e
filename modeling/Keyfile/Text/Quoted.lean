import Keyfile.Text.Hexadecimal
import Keyfile.Text.PrintableTable

/-!
# Quoted texts

A quoted text stands between single quotes, or between double quotes when it holds a single quote
and no double quote. The backslash, the surrounding quote, tab, line feed and carriage return are
escaped with a backslash, other characters that are not printable by their code point in
hexadecimal.
-/

namespace Keyfile.Text

def quoteChar (quote c : Char) : Text :=
  let n := c.toNat
  if c = quote || c = '\\' then ['\\', c]
  else if c = '\t' then ['\\', 't']
  else if c = '\n' then ['\\', 'n']
  else if c = '\r' then ['\\', 'r']
  else if isPrintable c then [c]
  else if n < 0x100 then ['\\', 'x'] ++ hexDigits 2 n
  else if n < 0x10000 then ['\\', 'u'] ++ hexDigits 4 n
  else ['\\', 'U'] ++ hexDigits 8 n

def quotationMark (t : Text) : Char :=
  if List.contains t '\'' && !List.contains t '"' then '"' else '\''

def quoted (t : Text) : Text :=
  let quote := quotationMark t
  quote :: t.flatMap (quoteChar quote) ++ [quote]

/-- The quoted texts between brackets, a comma and a space between neighbours. -/
def quotedList (texts : List Text) : Text :=
  '[' :: join [',', ' '] (texts.map quoted) ++ [']']

end Keyfile.Text
