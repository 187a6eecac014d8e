import Keyfile.Log.Level
import Keyfile.Log.Stream

/-!
# Loggers

A logger takes records for a channel and its sub-channels. It passes those of its level on to its
handlers, and also to the loggers above it as long as it propagates. Each handler has a level and a
layout of its own and writes to the console or to a file.
-/

namespace Keyfile.Log

/-- A message for a channel. -/
structure Record where
  channel : Text
  level : Int
  message : Text
  deriving DecidableEq, Repr

inductive Target
  | console
  /-- A file, through the stream of a number. -/
  | file (path : Path) (mode : Mode) (stream : Nat)
  /-- A file that is replaced by a new one before it reaches `limit`, the last `backups` files being
  kept. -/
  | rotating (path : Path) (mode : Mode) (limit backups : Int) (stream : Nat)
  deriving DecidableEq, Repr

/-- How a handler writes a record. -/
inductive Layout
  | short
  /-- The time, the level, the channel and the message. -/
  | full
  /-- The level, the channel and the message between bars. -/
  | plain
  deriving DecidableEq, Repr

def Layout.format (layout : Layout) (time : Text) (record : Record) : Text :=
  let level := levelName record.level
  match layout with
  | short => '[' :: level ++ [']', ' '] ++ record.message
  | full => time ++ [' ', '['] ++ level ++ [']', ' '] ++ record.channel ++ [':', ' '] ++ record.message
  | plain => level ++ '|' :: record.channel ++ '|' :: record.message

/-- Writes records of a level and above. -/
structure Handler where
  target : Target
  level : Int := 0
  layout : Layout
  deriving DecidableEq, Repr

namespace Handler

def path? (handler : Handler) : Option Path :=
  match handler.target with
  | .console => none
  | .file path .. => some path
  | .rotating path .. => some path

def className (handler : Handler) : Text :=
  match handler.target with
  | .console => "StreamHandler".toList
  | .file .. => "FileHandler".toList
  | .rotating .. => "RotatingFileHandler".toList

end Handler

/-- Takes the records of a channel. -/
structure Logger where
  name : Text
  /-- The least level that is passed on; zero leaves it to the loggers above. -/
  level : Int := 0
  propagates : Bool := true
  handlers : List Handler := []
  deriving DecidableEq, Repr

/-- The loggers of a session; at most one has a name. -/
abbrev Loggers := List Logger

namespace Loggers

def find? (loggers : Loggers) (name : Text) : Option Logger :=
  List.find? (·.name == name) loggers

def put (loggers : Loggers) (logger : Logger) : Loggers :=
  if loggers.any (·.name == logger.name) then
    loggers.map fun other => if other.name = logger.name then logger else other
  else loggers ++ [logger]

def lineage (channel : Text) : List Text :=
  let parts := Text.splitAt '.' channel
  ((List.range parts.length).map fun n => Text.join ['.'] (parts.take (n + 1))).reverse

/-- The loggers of a channel and of those above it, the nearest first. -/
def above (loggers : Loggers) (channel : Text) : List Logger :=
  (lineage channel).filterMap loggers.find?

/-- The least level that a channel passes on: that of the nearest logger that has one. -/
def effectiveLevel (loggers : Loggers) (channel : Text) : Int :=
  match (loggers.above channel).find? (·.level != 0) with
  | some logger => logger.level
  | none => warningLevel

def handlersOf : List Logger → List Handler
  | [] => []
  | logger :: rest =>
    logger.handlers ++ if logger.propagates then handlersOf rest else []

def handlersFor (loggers : Loggers) (record : Record) : List Handler :=
  if record.level ≤ 0 || record.level < loggers.effectiveLevel record.channel then []
  else (handlersOf (loggers.above record.channel)).filter (·.level ≤ record.level)

end Loggers

end Keyfile.Log
