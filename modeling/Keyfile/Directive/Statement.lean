import Keyfile.Directive.Word
import Keyfile.Text.Blank
import Keyfile.Text.Case
import Keyfile.Text.Lines

/-!
# Statements

The lines of a source text are gathered into statements. A line that is empty or a comment, or has
neither a directive nor an equals sign, makes none. An entry whose value opens a block takes the
lines of the block with it, up to the line that closes the block or the end of the text; they are
trimmed and joined by a carriage return and a line feed. Gathering looks at the characters alone:
what a statement does is decided when it is carried out.
-/

namespace Keyfile

/-- What one or several lines of a source text say. -/
inductive Statement
  | entry (key value : Text)
  | directive (word : Directive) (argument : Text)
  | unknown (line : Text)
  deriving DecidableEq, Repr

/-- A block value that is still being read. -/
structure OpenValue where
  key : Text
  /-- The number of the line that opened the value. -/
  line : Nat
  parts : List Text
  deriving DecidableEq, Repr

def blockStart : Text := ['\x7b', '\x7b']

def blockEnd : Text := ['\x7d', '\x7d']

/-- Whether a trimmed line is a comment. -/
def isComment (line : Text) : Bool :=
  ['/', '/'].isPrefixOf line || ['-', '-'].isPrefixOf line || ['<'].isPrefixOf line

namespace Statement

def ofDirectiveLine (afterSign : Text) : Statement :=
  match Text.firstWord afterSign with
  | none => .unknown ('#' :: afterSign)
  | some (word, argument) =>
    match Directive.ofWord? (Text.lower word) with
    | some known => .directive known argument
    | none => .unknown ('#' :: afterSign)

/-- What a single trimmed line says. -/
inductive Line
  | nothing
  | statement (statement : Statement)
  /-- The line opens a value of several lines, `first` standing on the line itself. -/
  | opening (key first : Text)
  deriving DecidableEq, Repr

def Line.ofText (line : Text) : Line :=
  if line = [] || isComment line then .nothing
  else
    match line with
    | '#' :: afterSign => .statement (ofDirectiveLine afterSign)
    | _ =>
      match Text.cutAt '=' line with
      | none => .nothing
      | some (key, value) =>
        let value := Text.trim value
        if blockStart.isPrefixOf value then
          .opening (Text.trim key) (Text.trim (value.drop blockStart.length))
        else .statement (.entry (Text.trim key) value)

end Statement

namespace OpenValue

/-- A value opened on a line; what stands on the opening line itself is its first line. -/
def opened (line : Nat) (key first : Text) : OpenValue :=
  ⟨key, line, if first = [] then [] else [first]⟩

def close (value : OpenValue) : Nat × Statement :=
  (value.line, .entry value.key (Text.trim (Text.join ['\r', '\n'] value.parts)))

end OpenValue

/-- Gathers lines into numbered statements, `number` being the number of the first line. -/
def gather : Option OpenValue → Nat → List Text → List (Nat × Statement)
  | none, _, [] => []
  | some value, _, [] => [value.close]
  | some value, number, line :: rest =>
    let line := Text.trim line
    if blockEnd.isPrefixOf line then value.close :: gather none (number + 1) rest
    else gather (some { value with parts := value.parts ++ [line] }) (number + 1) rest
  | none, number, line :: rest =>
    match Statement.Line.ofText (Text.trim line) with
    | .nothing => gather none (number + 1) rest
    | .statement statement => (number, statement) :: gather none (number + 1) rest
    | .opening key first =>
      gather (some (OpenValue.opened number key first)) (number + 1) rest

def statements (text : Text) : List (Nat × Statement) :=
  gather none 1 (Text.lines text)

end Keyfile
