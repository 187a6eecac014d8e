import Keyfile.Text.Basic

/-!
# Directives

The words that may follow the number sign of a directive line.
-/

namespace Keyfile

/-- The directives of the language. -/
inductive Directive
  /-- Defines a macro by a text that is expanded when it is read. -/
  | define
  /-- Defines a macro by the present expansion of a text. -/
  | set
  | undefine
  | ifBegin
  | ifElse
  | ifEnd
  | switchBegin
  | switchCase
  | switchDefault
  | switchEnd
  | sectionBegin
  | sectionEnd
  deriving DecidableEq, Repr

namespace Directive

def word : Directive → Text
  | define => "define".toList
  | set => "set".toList
  | undefine => "undef".toList
  | ifBegin => "if".toList
  | ifElse => "else".toList
  | ifEnd => "endif".toList
  | switchBegin => "switch".toList
  | switchCase => "case".toList
  | switchDefault => "default".toList
  | switchEnd => "endswitch".toList
  | sectionBegin => "section".toList
  | sectionEnd => "endsection".toList

def all : List Directive :=
  [define, set, undefine, ifBegin, ifElse, ifEnd, switchBegin, switchCase, switchDefault,
    switchEnd, sectionBegin, sectionEnd]

def ofWord? (word : Text) : Option Directive :=
  all.find? (·.word == word)

/-- Every directive is found by its word, so no two directives share one. -/
theorem ofWord?_word (directive : Directive) : ofWord? directive.word = some directive := by
  cases directive <;> rfl

end Directive

end Keyfile
