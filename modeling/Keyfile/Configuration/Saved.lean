import Keyfile.Configuration.Basic

/-!
# The saved form

A configuration is saved as a source text: its macros as definitions, an empty line, and its keys
with their raw values. A value of several lines is written as a block.
-/

namespace Keyfile

def entryLines (entry : Text × Text) : List Text :=
  if Text.isMultiline entry.2 then
    (entry.1 ++ " = ".toList ++ blockStart) :: Text.lines entry.2 ++ [blockEnd]
  else [entry.1 ++ " = ".toList ++ entry.2]

def definitionLine (definition : Text × Text) : Text :=
  Text.trimEnd ("#define ".toList ++ definition.1 ++ ' ' :: definition.2)

namespace Configuration

def savedLines (config : Configuration) (scope : Option Text) : List Text :=
  let definitions := config.macros.entries.map definitionLine
  definitions ++ (if definitions = [] then [] else [[]]) ++
    (config.entries scope).flatMap entryLines

def saved (config : Configuration) (scope : Option Text) : Text :=
  Text.join ['\n'] (config.savedLines scope) ++ ['\n']

end Configuration

end Keyfile
