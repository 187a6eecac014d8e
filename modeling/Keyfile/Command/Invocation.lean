import Keyfile.Command.Arguments

/-!
# Invocations

A command line names one of five commands with its arguments. In front of the command options can
set the level of the records shown on the console and a file for records.
-/

namespace Keyfile

/-- What is to be done. -/
inductive Command
  | dump (file : Text) (scope : Option Text) (asJson : Bool)
  | get (file : Text) (key : Command.Argument) (default : Option Command.Argument)
  | render (file : Text) (tags : List Text)
  | restore (file : Text)
  | define (file : Text) (name : Command.Argument) (text : Text)
  deriving DecidableEq, Repr

namespace Command

/-- A command with the options in front of it. -/
structure Invocation where
  level : Text := "WARNING".toList
  logFile : Option Text := none
  command : Command
  deriving DecidableEq, Repr

def noWord : Text :=
  "[]".toList

def helpForms : List OptionForm :=
  [⟨"-h".toList, .help⟩, ⟨"--help".toList, .help⟩]

def levelNames : List Text :=
  ["CRITICAL".toList, "ERROR".toList, "WARNING".toList, "INFO".toList, "DEBUG".toList]

def leadingForms : List OptionForm :=
  helpForms ++ [⟨"--log-level".toList, .value (some levelNames)⟩, ⟨"--log-file".toList, .value none⟩]

/-- The arguments of a command that has no options but those for the usage. -/
def plainArguments (places : List Place) (words : List Text) : Except Ending (List (List Text)) :=
  (·.2) <$> arguments helpForms places words

def ofWords (name : Text) (words : List Text) : Except Ending Command :=
  match String.ofList name with
  | "dump" => do
    let forms := helpForms ++ [⟨"--section".toList, .value none⟩, ⟨"--json".toList, .flag⟩]
    match ← arguments forms [.one] words with
    | (reading, [[file]]) =>
      return .dump file (reading.argument? "--section".toList).join
        (reading.argument? "--json".toList).isSome
    | _ => throw .mistake
  | "get" => do
    let forms := helpForms ++ [⟨"--default".toList, .value none⟩]
    match ← arguments forms [.one, .one] words with
    | (reading, [[file], key]) => return .get file key.head? (reading.argument? "--default".toList)
    | _ => throw .mistake
  | "rewrite" => do
    match ← plainArguments [.one, .many] words with
    | [[file], tags] => return .render file tags
    | _ => throw .mistake
  | "restore" => do
    match ← plainArguments [.one] words with
    | [[file]] => return .restore file
    | _ => throw .mistake
  | "edit-macro" => do
    match ← plainArguments [.one, .one, .one] words with
    | [[file], name, text] => return .define file name.head? (text.head?.getD noWord)
    | _ => throw .mistake
  | _ => .error .mistake

/-- Splits words before the first plain one that is no value of an option. -/
def splitLeading : List Word → List Word × List Word
  | [] => ([], [])
  | word :: rest =>
    match word.role with
    | .plain | .divider => ([], word :: rest)
    | .option ⟨_, .value _⟩ none =>
      match rest with
      | [] => ([word], [])
      | value :: others =>
        let (leading, following) := splitLeading others
        (word :: value :: leading, following)
    | _ =>
      let (leading, following) := splitLeading rest
      (word :: leading, following)

def Invocation.ofWords (words : List Text) : Except Ending Invocation := do
  let (leading, following) := splitLeading (← classify leadingForms words)
  let reading ← read leadingForms leading
  match following with
  | [] => throw .mistake
  | name :: rest =>
    let command ← Command.ofWords name.text (rest.map (·.text))
    if reading.hasUnknown then throw .mistake
    return {
      level := ((reading.argument? "--log-level".toList).getD "WARNING".toList).getD noWord
      logFile := (reading.argument? "--log-file".toList).join
      command }

end Command

end Keyfile
