import Keyfile.Session.Files
import Keyfile.Template.Rendering

/-!
# Installing renderings

A template file is rendered in place. The first time its contents are kept in a backup beside it;
while that backup exists it is the template of every further rendering. Restoring moves the backup
back over the file.
-/

namespace Keyfile.Template

/-- What is added to the name of a template file to name its backup. -/
def backupEnding : Text :=
  ".bak".toList

def isInstalled (path : Path) : Session Bool := do
  Session.holds (← Session.backupPath path backupEnding)

/-- The rendering of a template with the texts of tags; texts without bytes are a failure. -/
def renderFile (path : Path) (encoding : Encoding) (texts : Table) (template : Bytes) :
    Session Rendering := do
  match render encoding texts template with
  | none => throw .unencodable
  | some rendering =>
    for tag in rendering.unknown do
      Journal.record (.tagUnknown tag (Session.pathText path))
    return rendering

def install (path : Path) (encoding : Encoding) (texts : Table) : Session Nat := do
  let backup ← Session.backupPath path backupEnding
  let rendering ←
    if ← Session.holds backup then
      let rendering ← renderFile path encoding texts (← Session.readBytes backup)
      Session.writeBytes path rendering.content
      pure rendering
    else
      let rendering ← renderFile path encoding texts (← Session.readBytes path)
      Session.writeBytes path rendering.content (some backupEnding)
      pure rendering
  Journal.record (.linesReplaced rendering.replaced (Session.pathText path))
  return rendering.replaced

/-- Moves the backup of a file back over it; tells whether there was one. -/
def restore (path : Path) : Session Bool := do
  let backup ← Session.backupPath path backupEnding
  if ← Session.holds backup then
    Session.renameFile backup path
    Journal.record (.fileRestored (Session.pathText path))
    return true
  else
    Journal.record (.nothingToRestore (Session.pathText path))
    return false

def describe (path : Path) : Session Text := do
  let installed := if ← isInstalled path then "True".toList else "False".toList
  return "ConfigRewriter(path=".toList ++ Text.quoted (Session.pathText path) ++
    ", rewritten=".toList ++ installed ++ [')']

end Keyfile.Template
