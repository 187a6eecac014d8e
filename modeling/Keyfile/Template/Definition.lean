import Keyfile.Session.Files
import Keyfile.Text.Blank

/-!
# Editing definitions

The definitions of a macro in a source file are given a new text, line by line. A definition is
recognised by its word in lower case with one space after it and by the macro's name as it is
spelled. Every line of the file ends in a carriage return and a line feed afterwards.
-/

namespace Keyfile

def definitionMark : Text :=
  "#define ".toList

def defines (name line : Text) : Bool :=
  let line := Text.trim line
  definitionMark.isPrefixOf line &&
    match Text.firstWord (line.drop definitionMark.length) with
    | some (word, _) => word == name
    | none => false

def editLine (name text line : Text) : Text :=
  if defines name line then definitionMark ++ name ++ ' ' :: text else line

def editDefinitions (name text source : Text) : Text :=
  (Text.lines source).flatMap fun line => editLine name text line ++ ['\r', '\n']

def hasDefinition (name source : Text) : Bool :=
  (Text.lines source).any (defines name)

namespace Session

/-- Changes the definitions of a macro in a file that is given by its name; tells whether there were
any. -/
def editDefinitions (file name text : Text) (encoding : Encoding := .utf8) : Session Bool := do
  let path ← resolve file
  let source ← readText path encoding
  writeText path (Keyfile.editDefinitions name text source) encoding
  let found := hasDefinition name source
  if found then Journal.record (.definitionsChanged name file)
  return found

end Session

end Keyfile
