import Keyfile.File.Path
import Keyfile.Record
import Keyfile.Text.Encoding

/-!
# File trees

A tree holds files with their bytes, and directories, under paths. The root is always a directory.
No name is longer than 255 bytes and no path, written as a text, longer than 4095; even to ask for a
longer one is an error. Each operation either gives the changed tree or says why it cannot be
carried out. Only the making of directories can stop halfway: those made before an error stay.
-/

namespace Keyfile

/-- Why an operation on files cannot be carried out. -/
inductive FileError
  | notFound
  | alreadyExists
  | isDirectory
  | notDirectory
  | notEmpty
  | busy
  /-- A name would lead into another directory, or holds the null character. -/
  | nameInvalid
  /-- A name or a path has more bytes than it can have. -/
  | nameTooLong
  /-- More directories are missing, one above the other, than can be made at once. -/
  | tooDeep
  deriving DecidableEq, Repr

/-- What stands under a path. -/
inductive Node
  | file (content : Bytes)
  | directory
  deriving DecidableEq, Repr

/-- Files and directories under their paths. -/
structure FileTree where
  nodes : List (Path × Node) := []
  deriving DecidableEq, Inhabited

namespace FileTree

def get? (tree : FileTree) (path : Path) : Option Node :=
  if path = [] then some .directory else tree.nodes.lookup path

def contains (tree : FileTree) (path : Path) : Bool :=
  (tree.get? path).isSome

def byteCount (t : Text) : Nat :=
  (t.flatMap Encoding.utf8Bytes).length

def isTooLongName (name : Text) : Bool :=
  255 < byteCount name

def isTooLongWay (t : Text) : Bool :=
  4095 < byteCount t

/-- Whether a path is too long as a whole or in its last name. -/
def isTooLong (path : Path) : Bool :=
  isTooLongName path.name || isTooLongWay path.text

/-- Whether names lead from one place to another, every step on the way leaving a directory. -/
def leads (tree : FileTree) : Path → List Text → Except FileError Bool
  | here, [] => .ok (tree.contains here)
  | here, name :: rest =>
    match tree.get? here with
    | some .directory =>
      if isTooLongName name then .error .nameTooLong else leads tree (Path.step here name) rest
    | _ => .ok false

/-- Whether the names of a text, seen from a working directory, lead to anything. A name that makes
no step asks for no directory. -/
def leadsTo (tree : FileTree) (directory : Path) (t : Text) : Except FileError Bool :=
  if !Path.isNameable t then .ok false
  else if isTooLongWay (Path.collapsed t) then .error .nameTooLong
  else tree.leads (Path.start directory t) (Path.steps t)

def passesFile (tree : FileTree) (path : Path) : Bool :=
  path.ancestors.any fun ancestor =>
    match tree.get? ancestor with
    | some (.file _) => true
    | _ => false

def missing (tree : FileTree) (path : Path) : FileError :=
  if isTooLongWay path.text then .nameTooLong
  else if tree.passesFile path then .notDirectory
  else
    match (path.ancestors ++ [path]).find? fun place => !tree.contains place with
    | some place => if isTooLongName place.name then .nameTooLong else .notFound
    | none => .notFound

def holds (tree : FileTree) (path : Path) : Except FileError Bool :=
  if tree.contains path then .ok true
  else
    match tree.missing path with
    | .nameTooLong => .error .nameTooLong
    | _ => .ok false

def read (tree : FileTree) (path : Path) : Except FileError Bytes :=
  match tree.get? path with
  | some (.file content) => .ok content
  | some .directory => .error .isDirectory
  | none => .error (tree.missing path)

def put (tree : FileTree) (path : Path) (node : Node) : FileTree :=
  ⟨place (·.1 == path) (path, node) tree.nodes⟩

def erase (tree : FileTree) (path : Path) : FileTree :=
  ⟨tree.nodes.filter (·.1 != path)⟩

/-- The tree that an operation gives; when it gives an error, the tree as it was and the error. -/
def after (tree : FileTree) (result : Except FileError FileTree) :
    FileTree × Except FileError Unit :=
  match result with
  | .ok changed => (changed, .ok ())
  | .error error => (tree, .error error)

def depthLimit : Nat := 980

/-- The tree with a directory and those above it, which are made from the root on. A name that is too
long ends the making: the directories above it are there then. -/
def makeDirectories (tree : FileTree) (path : Path) : FileTree × Except FileError Unit :=
  match tree.get? path with
  | some (.file _) => (tree, .error .alreadyExists)
  | some .directory => (tree, .ok ())
  | none =>
    if isTooLongWay path.text then (tree, .error .nameTooLong)
    else if tree.passesFile path then (tree, .error .notDirectory)
    else
      let absent := (path.ancestors ++ [path]).dropWhile tree.contains
      let made := absent.takeWhile fun place => !isTooLongName place.name
      if made = [] then (tree, .error .nameTooLong)
      else if depthLimit < absent.length then (tree, .error .tooDeep)
      else
        (⟨tree.nodes ++ made.map (·, .directory)⟩,
          if made = absent then .ok () else .error .nameTooLong)

def hasChildren (tree : FileTree) (path : Path) : Bool :=
  tree.nodes.any fun node => path.isPrefixOf node.1 && node.1 != path

/-- The tree with all that stands at or below one path moved to another. -/
def move (tree : FileTree) (source target : Path) : FileTree :=
  ⟨(tree.erase target).nodes.map fun node =>
    if source.isPrefixOf node.1 then (target ++ node.1.drop source.length, node.2) else node⟩

/-- The tree in which `source` has taken the place of `target`: a file replaces a file, a directory
replaces an empty directory. -/
def rename (tree : FileTree) (source target : Path) : Except FileError FileTree :=
  match tree.get? source, tree.get? target with
  | none, _ => .error (tree.missing source)
  | some (.file _), some .directory => .error .isDirectory
  | some .directory, some (.file _) => .error .notDirectory
  | some .directory, some .directory =>
    if tree.hasChildren target then .error .notEmpty else .ok (tree.move source target)
  | some _, _ =>
    if source = target then .ok tree
    else if isTooLong target then .error .nameTooLong
    else .ok (tree.move source target)

/-- Why nothing can take the place of a directory that is named from within. -/
def inside (tree : FileTree) (path : Path) : FileError :=
  match tree.get? path with
  | some (.file _) => .notDirectory
  | some .directory => .busy
  | none => tree.missing path

def delete (tree : FileTree) (path : Path) : Except FileError FileTree :=
  match tree.get? path with
  | some (.file _) => .ok (tree.erase path)
  | some .directory => .error .isDirectory
  | none => .error (tree.missing path)

def files (tree : FileTree) : List (Path × Bytes) :=
  tree.nodes.filterMap fun node =>
    match node.2 with
    | .file content => some (node.1, content)
    | .directory => none

end FileTree

end Keyfile
