import Keyfile.File.Tree

/-!
# Streams

A stream is a file that was opened and stays open. It keeps to its file: when the file is moved the
stream goes with it, and when the file is removed, or another file takes its place, the stream
writes to a file that has no name any more. A stream that does not append goes on writing where it
stopped, whatever became of the file in the meantime.
-/

namespace Keyfile.Log

/-- How a file is opened. -/
inductive Mode
  /-- Writes go to the end of the file, which is made when it is missing. -/
  | append
  | truncate
  /-- The file is made; it must be missing. -/
  | create
  /-- The file must be there; writes go to its start. -/
  | update
  /-- The file must be there; nothing is written. -/
  | read
  deriving DecidableEq, Repr

/-- The mode that a text asks for: one letter says how to open, a plus sign allows what the letter
alone would not, and a `t` says that the file is a text. Each may come once, in any order. -/
def Mode.ofText? (t : Text) : Option Mode :=
  let letters := t.filter fun c => c != '+' && c != 't'
  if t.eraseDups != t then none
  else
    match letters with
    | ['a'] => some append
    | ['w'] => some truncate
    | ['x'] => some create
    | ['r'] => some (if t.contains '+' then update else read)
    | _ => none

def Mode.openFile (mode : Mode) (files : FileTree) (path : Path) : Except FileError FileTree :=
  match mode, files.get? path with
  | create, some _ => .error .alreadyExists
  | _, some .directory => .error .isDirectory
  | truncate, some (.file _) => .ok (files.put path (.file []))
  | _, some (.file _) => .ok files
  | update, none | read, none => .error (files.missing path)
  | _, none =>
    if FileTree.isTooLong path then .error .nameTooLong
    else .ok (files.put path (.file []))

/-- Where the file of a stream is. -/
inductive Place
  | path (path : Path)
  | nameless (number : Nat)
  deriving DecidableEq, Repr

structure Stream where
  place : Place
  mode : Mode
  /-- Where the next write goes, unless it goes to the end. -/
  position : Nat := 0
  deriving DecidableEq, Repr

/-- The streams of a session by their numbers, with the files that have no name. -/
structure Streams where
  /-- The streams; a closed one is none. -/
  streams : List (Option Stream) := []
  nameless : List Bytes := []
  deriving DecidableEq, Repr, Inhabited

/-- The contents after bytes were written from a position on; a gap is filled with zeros. -/
def overwrite (content : Bytes) (position : Nat) (bytes : Bytes) : Bytes :=
  content.take position ++ List.replicate (position - content.length) 0 ++ bytes ++
    content.drop (position + bytes.length)

namespace Streams

def get? (streams : Streams) (number : Nat) : Option Stream :=
  (streams.streams[number]?).join

def set (streams : Streams) (number : Nat) (stream : Option Stream) : Streams :=
  { streams with streams := streams.streams.set number stream }

def add (streams : Streams) (stream : Stream) : Streams × Nat :=
  ({ streams with streams := streams.streams ++ [some stream] }, streams.streams.length)

def mapPlaces (streams : Streams) (f : Place → Place) : Streams :=
  { streams with
    streams := streams.streams.map (Option.map fun stream => { stream with place := f stream.place }) }

/-- The streams after the file of a path, with its contents, has lost its name. -/
def leave (streams : Streams) (path : Path) (content : Bytes) : Streams :=
  let number := streams.nameless.length
  let left := streams.mapPlaces fun place => if place = .path path then .nameless number else place
  { left with nameless := left.nameless ++ [content] }

/-- Where a place is after all that stood at or below `source` was moved to `target`. -/
def moved (source target : Path) : Place → Place
  | .path path =>
    .path (if source.isPrefixOf path then target ++ path.drop source.length else path)
  | place => place

def follow (streams : Streams) (files : FileTree) (source target : Path) : Streams :=
  if source = target then streams
  else
    let streams :=
      match files.get? target with
      | some (.file content) => streams.leave target content
      | _ => streams
    streams.mapPlaces (moved source target)

def contentOf (streams : Streams) (files : FileTree) : Place → Bytes
  | .path path =>
    match files.get? path with
    | some (.file content) => content
    | _ => []
  | .nameless number => (streams.nameless[number]?).getD []

def write (streams : Streams) (files : FileTree) (number : Nat) (bytes : Bytes) :
    FileTree × Streams :=
  match streams.get? number with
  | none => (files, streams)
  | some stream =>
    if stream.mode = .read then (files, streams)
    else
      let content := streams.contentOf files stream.place
      let position := if stream.mode = .append then content.length else stream.position
      let written := overwrite content position bytes
      let streams :=
        streams.set number (some { stream with position := position + bytes.length })
      match stream.place with
      | .path path => (files.put path (.file written), streams)
      | .nameless n => (files, { streams with nameless := streams.nameless.set n written })

end Streams

end Keyfile.Log
