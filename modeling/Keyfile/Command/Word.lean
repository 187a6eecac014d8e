import Keyfile.Text.Digit

/-!
# Words of a command line

A word of a command line is a plain word or names an option. Long names may be shortened as long as
one option alone fits, and a value may be attached to a name: after an equals sign, or directly
behind a name of one letter. After a word of two hyphens all words are plain.
-/

namespace Keyfile.Command

/-- What an option asks for. -/
inductive Demand
  /-- The usage is shown and nothing else is done. -/
  | help
  | flag
  /-- The option takes a value, one of `allowed` when these are given. -/
  | value (allowed : Option (List Text))
  deriving DecidableEq, Repr

/-- An option by its name, hyphens included. -/
structure OptionForm where
  name : Text
  demand : Demand
  deriving DecidableEq, Repr

/-- A value attached to the name of an option. -/
inductive Attached
  | afterEquals (value : Text)
  | behindLetter (value : Text)
  deriving DecidableEq, Repr

/-- What a word is for. -/
inductive Role
  | plain
  | divider
  | option (form : OptionForm) (attached : Option Attached)
  | unknown
  deriving DecidableEq, Repr

/-- A word with its role. -/
structure Word where
  text : Text
  role : Role
  deriving DecidableEq, Repr

/-- How a command line can end before its command is known. -/
inductive Ending
  | help
  | mistake
  deriving DecidableEq, Repr

def isNegativeNumber (word : Text) : Bool :=
  let digits := word.drop 1
  let digits := if digits.getLast? = some '\n' then digits.dropLast else digits
  match Text.cutAt '.' digits with
  | none => digits ≠ [] && digits.all Text.isDigit
  | some (whole, fraction) => whole.all Text.isDigit && fraction ≠ [] && fraction.all Text.isDigit

def splitAttached (word : Text) : Text × Option Attached :=
  match Text.cutAt '=' word with
  | some (name, value) => (name, some (.afterEquals value))
  | none => (word, none)

/-- The options that a word with a shortened name, or with a value behind a letter, can mean. -/
def candidates (forms : List OptionForm) (word : Text) : List (OptionForm × Option Attached) :=
  match word with
  | '-' :: '-' :: _ =>
    let (name, attached) := splitAttached word
    (forms.filter fun form => name.isPrefixOf form.name).map (·, attached)
  | '-' :: letter :: value =>
    (forms.filter (·.name == ['-', letter])).map (·, some (.behindLetter value))
  | _ => []

def roleOf (forms : List OptionForm) (word : Text) : Except Ending Role :=
  match word with
  | [] | ['-'] => .ok .plain
  | '-' :: _ =>
    match forms.find? (·.name == word) with
    | some form => .ok (.option form none)
    | none =>
      let (name, attached) := splitAttached word
      match attached, forms.find? (·.name == name) with
      | some value, some form => .ok (.option form (some value))
      | _, _ =>
        match candidates forms word with
        | [(form, attached)] => .ok (.option form attached)
        | _ :: _ => .error .mistake
        | [] =>
          if isNegativeNumber word || word.contains ' ' then .ok .plain else .ok .unknown
  | _ => .ok .plain

def classify (forms : List OptionForm) : List Text → Except Ending (List Word)
  | [] => .ok []
  | word :: rest =>
    if word = ['-', '-'] then .ok (⟨word, .divider⟩ :: rest.map (⟨·, .plain⟩))
    else do
      let role ← roleOf forms word
      return ⟨word, role⟩ :: (← classify forms rest)

end Keyfile.Command
