import Keyfile.Text.Basic

/-!
# Journal

What the library does is recorded as events. Every event has a severity, the channel it belongs to
and a message. A monad that keeps a journal takes events in; the identity monad drops them, so a
pure run is a run without a journal.
-/

namespace Keyfile

/-- The severities of events, from the least on. -/
inductive Severity
  | debug
  | info
  | warning
  | error
  deriving DecidableEq, Repr

def Severity.level : Severity → Int
  | debug => 10
  | info => 20
  | warning => 30
  | error => 40

inductive Event
  /-- A waiting value was not written because its key was written explicitly. -/
  | valueOverridden (key : Text)
  | macroDefined (name : Text)
  | macroRemoved (name : Text)
  /-- A source text was read to its end. -/
  | textProcessed (lines positioned : Nat)
  | configurationLoaded (keys : Nat) (added : Int)
  | fileLoaded (path : Text)
  | movedToBackup (path backup : Text)
  | textWritten (path : Text)
  | bytesWritten (count : Nat) (path : Text)
  /-- A marked line was kept because its tag has no text. -/
  | tagUnknown (tag path : Text)
  | linesReplaced (count : Nat) (path : Text)
  | nothingToRestore (path : Text)
  | fileRestored (path : Text)
  | definitionsChanged (name path : Text)
  | keyMissing (key : Text)
  | definitionMissing (name path : Text)
  | commandRefused (reason : Text)
  | commandFailed (reason : Text)
  deriving DecidableEq, Repr

namespace Event

def severity : Event → Severity
  | valueOverridden _ | macroDefined _ | macroRemoved _ | textProcessed .. | movedToBackup ..
  | bytesWritten .. | nothingToRestore _ => .debug
  | configurationLoaded .. | fileLoaded _ | textWritten _ | linesReplaced .. | fileRestored _
  | definitionsChanged .. => .info
  | tagUnknown .. | keyMissing _ | definitionMissing .. => .warning
  | commandRefused _ | commandFailed _ => .error

def channel : Event → Text
  | valueOverridden _ => "confpp.config.keystore".toList
  | macroDefined _ | macroRemoved _ => "confpp.config.macros".toList
  | textProcessed .. => "confpp.config.preprocessor".toList
  | configurationLoaded .. | fileLoaded _ => "confpp.config.config".toList
  | movedToBackup .. | textWritten _ | bytesWritten .. => "confpp.config.store".toList
  | tagUnknown .. | linesReplaced .. | nothingToRestore _ | fileRestored _
  | definitionsChanged .. => "confpp.config.rewriter".toList
  | keyMissing _ | definitionMissing .. | commandRefused _ | commandFailed _ =>
    "confpp.cli".toList

def message : Event → Text
  | valueOverridden key =>
    "Explicit ".toList ++ key ++ " overrides auto-increment value".toList
  | macroDefined name => "Defined macro ".toList ++ name
  | macroRemoved name => "Removed macro ".toList ++ name
  | textProcessed lines positioned =>
    "Preprocessed ".toList ++ Text.ofNat lines ++ " line(s), ".toList ++ Text.ofNat positioned ++
      " auto-indexed value(s)".toList
  | configurationLoaded keys added =>
    "Loaded configuration: ".toList ++ Text.ofNat keys ++ " key(s) (".toList ++
      Text.ofInt added ++ " new)".toList
  | fileLoaded path => "Loaded configuration file: ".toList ++ path
  | movedToBackup path backup =>
    "Moved ".toList ++ path ++ " to backup ".toList ++ backup
  | textWritten path => "Wrote text to ".toList ++ path
  | bytesWritten count path =>
    "Wrote ".toList ++ Text.ofNat count ++ " byte(s) to ".toList ++ path
  | tagUnknown tag path =>
    "No replacement for tag '".toList ++ tag ++ "' in ".toList ++ path
  | linesReplaced count path =>
    "Rewrote ".toList ++ Text.ofNat count ++ " line(s) in ".toList ++ path
  | nothingToRestore path => "Nothing to restore for ".toList ++ path
  | fileRestored path => "Restored ".toList ++ path
  | definitionsChanged name path => "Set macro ".toList ++ name ++ " in ".toList ++ path
  | keyMissing key => "Key not found: ".toList ++ key
  | definitionMissing name path =>
    "No #define ".toList ++ name ++ " found in ".toList ++ path
  | commandRefused reason => "Configuration error: ".toList ++ reason
  | commandFailed reason => "Unexpected error: ".toList ++ reason

end Event

/-- A monad that takes events in. -/
class Journal (m : Type → Type) where
  record : Event → m Unit

instance : Journal Id where
  record _ := ()

instance {m : Type → Type} {ε : Type} [Monad m] [Journal m] : Journal (ExceptT ε m) where
  record event := ExceptT.lift (Journal.record event)

end Keyfile
