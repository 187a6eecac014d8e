import Keyfile.Log.Logger

/-!
# Delivery of records

Handlers write the lines of records to the console and to the streams of their files. A rotating
file is moved aside before a line that would bring it to its limit: each kept file moves one number
further, the file itself gets the number one, and the stream is opened anew. A directory in the
place of a kept file ends the rotation; the line is lost then, and the stream stays closed until the
next one.
-/

namespace Keyfile.Log

structure Output where
  files : FileTree
  streams : Streams
  console : Text
  deriving DecidableEq

namespace Output

/-- The output with a stream open, none when it is closed and its file cannot be opened. -/
def ensureOpen (output : Output) (path : Path) (mode : Mode) (stream : Nat) : Option Output :=
  match output.streams.get? stream with
  | some _ => some output
  | none =>
    match mode.openFile output.files path with
    | .error _ => none
    | .ok files =>
      some { output with files, streams := output.streams.set stream (some ⟨.path path, mode, 0⟩) }

/-- The output with a text written to a stream, which is opened if it is closed. -/
def writeTo (output : Output) (path : Path) (mode : Mode) (stream : Nat) (text : Text) : Output :=
  match output.ensureOpen path mode stream with
  | none => output
  | some output =>
    let (files, streams) :=
      output.streams.write output.files stream (text.flatMap Encoding.utf8Bytes)
    { output with files, streams }

def numbered (path : Path) (number : Nat) : Path :=
  path.parent ++ [path.name ++ '.' :: Text.ofNat number]

def remove (output : Output) (path : Path) : Option Output :=
  match output.files.get? path with
  | none => some output
  | some .directory => none
  | some (.file content) =>
    some { output with
      files := output.files.erase path
      streams := output.streams.leave path content }

/-- The output with a file, if it is there, moved over another, none when it cannot be. -/
def move (output : Output) (source target : Path) : Option Output :=
  match output.remove target with
  | none => none
  | some output =>
    if !output.files.contains source then some output
    else if FileTree.isTooLong target then none
    else
      some { output with
        files := output.files.move source target
        streams := output.streams.follow output.files source target }

/-- The output after the kept files of the given numbers were moved one number further, and whether
all of them were. -/
def shift (output : Output) (path : Path) : List Nat → Output × Bool
  | [] => (output, true)
  | number :: rest =>
    if output.files.contains (numbered path number) then
      match output.move (numbered path number) (numbered path (number + 1)) with
      | none => (output, false)
      | some output => output.shift path rest
    else output.shift path rest

/-- The output after a file was moved aside; without kept files it stays in its place. -/
def moveAside (output : Output) (path : Path) (backups : Int) : Output × Bool :=
  if backups ≤ 0 then (output, true)
  else
    match output.shift path ((List.range (backups.toNat - 1)).reverse.map (· + 1)) with
    | (output, false) => (output, false)
    | (output, true) =>
      match output.move path (numbered path 1) with
      | none => (output, false)
      | some output => (output, true)

/-- The output after a file was rotated, and whether its stream is open again. -/
def rotate (output : Output) (path : Path) (mode : Mode) (backups : Int) (stream : Nat) :
    Output × Bool :=
  let closed := { output with streams := output.streams.set stream none }
  match closed.moveAside path backups with
  | (output, false) => (output, false)
  | (output, true) =>
    match output.ensureOpen path mode stream with
    | some output => (output, true)
    | none => (output, false)

def sizeOf (output : Output) (stream : Nat) : Nat :=
  match output.streams.get? stream with
  | some stream => (output.streams.contentOf output.files stream.place).length
  | none => 0

/-- The output ready for a line of a rotating file, and whether the line can be written. -/
def prepare (output : Output) (path : Path) (mode : Mode) (limit backups : Int) (stream : Nat)
    (length : Nat) : Output × Bool :=
  if output.files.get? path = some .directory then (output, true)
  else
    match output.ensureOpen path mode stream with
    | none => (output, false)
    | some output =>
      if 0 < limit && limit ≤ output.sizeOf stream + length then
        output.rotate path mode backups stream
      else (output, true)

def write (output : Output) (time : Text) (record : Record) (handler : Handler) : Output :=
  let line := handler.layout.format time record ++ ['\n']
  match handler.target with
  | .console => { output with console := output.console ++ line }
  | .file path mode stream => output.writeTo path mode stream line
  | .rotating path mode limit backups stream =>
    match output.prepare path mode limit backups stream line.length with
    | (output, true) => output.writeTo path mode stream line
    | (output, false) => output

def deliver (output : Output) (time : Text) (loggers : Loggers) (record : Record) : Output :=
  (loggers.handlersFor record).foldl (fun output handler => output.write time record handler) output

end Output

end Keyfile.Log
