import Keyfile.Reference.Expansion

/-!
# Errors of loading

A source text can be malformed at one of its lines, a reference to a key can lack the key, and an
expansion can run into a cycle or be nested too deeply. Each cause has one wording; a malformed line
is named by its number.
-/

namespace Keyfile

/-- Why a text is malformed. -/
inductive FormatCause
  | unknownDirective (line : Text)
  | nameMissing (directive : Text)
  | nameReserved (directive name : Text)
  | conditionMissing
  | expressionMissing
  | sectionNameMissing
  /-- A section name asks for a free position. -/
  | sectionNameIndexed (name : Text)
  /-- A directive stands where no block of its kind is the innermost open one. -/
  | openerMissing (directive opener : Text)
  | elseRepeated
  | caseAfterDefault
  | defaultRepeated
  | neverClosed (opener : Text)
  | referenceWithoutKey (reference : Text)
  deriving DecidableEq, Repr

def FormatCause.message : FormatCause → Text
  | unknownDirective line => "Unknown directive: ".toList ++ line
  | nameMissing directive => '#' :: directive ++ " requires a name".toList
  | nameReserved directive name =>
    '#' :: directive ++ " cannot redefine '".toList ++ name ++ ['\'']
  | conditionMissing => "#if requires a condition".toList
  | expressionMissing => "#switch requires an expression".toList
  | sectionNameMissing => "#section requires a name".toList
  | sectionNameIndexed name => "Section names cannot use '[-]': ".toList ++ name
  | openerMissing directive opener =>
    '#' :: directive ++ " without a matching #".toList ++ opener
  | elseRepeated => "Duplicate #else".toList
  | caseAfterDefault => "#case after #default".toList
  | defaultRepeated => "Duplicate #default".toList
  | neverClosed opener => '#' :: opener ++ " block is never closed".toList
  | referenceWithoutKey reference =>
    "Invalid configuration key name in reference: ".toList ++ reference

def ExpansionError.message : ExpansionError → Text
  | cycle name => "Recursive macro expansion detected for '".toList ++ name ++ ['\'', '.']
  | tooDeep => "maximum recursion depth exceeded".toList

/-- What can stop a load. -/
inductive LoadError
  /-- The text is malformed, at a line when one can be named. -/
  | format (cause : FormatCause) (line : Option Nat)
  | expansion (error : ExpansionError)
  deriving DecidableEq, Repr

namespace LoadError

def at_ (line : Nat) (cause : FormatCause) : LoadError :=
  .format cause (some line)

def message : LoadError → Text
  | format cause (some line) => "line ".toList ++ Text.ofNat line ++ [':', ' '] ++ cause.message
  | format cause none => cause.message
  | expansion error => error.message

end LoadError

end Keyfile
