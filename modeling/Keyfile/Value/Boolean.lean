import Keyfile.Text.Blank
import Keyfile.Text.Case

/-!
# Booleans as text

Six words stand for yes and six for no, in any case.
-/

namespace Keyfile.Boolean

def trueWords : List Text :=
  ["1".toList, "yes".toList, "on".toList, "true".toList, "high".toList, "enable".toList]

def falseWords : List Text :=
  ["0".toList, "no".toList, "off".toList, "false".toList, "low".toList, "disable".toList]

def ofText? (t : Text) : Option Bool :=
  let word := Text.lower (Text.trim t)
  if trueWords.contains word then some true
  else if falseWords.contains word then some false
  else none

end Keyfile.Boolean
