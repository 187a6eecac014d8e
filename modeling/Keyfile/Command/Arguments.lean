import Keyfile.Command.Word

/-!
# Arguments

The options of a command can stand anywhere among its plain words. The plain words between two
options fill the places of the command from left to right; what finds no place is left over, and so
is every unknown option.
-/

namespace Keyfile.Command

/-- What a place or an option holds: a word, or nothing where a second word of two hyphens
stands. -/
abbrev Argument := Option Text

/-- The argument that the value of an option gives, when the value is allowed. -/
def argumentOf? (allowed : Option (List Text)) (value : Text) : Option Argument :=
  if value = ['-', '-'] then some none
  else
    match allowed with
    | none => some (some value)
    | some values => if values.contains value then some (some value) else none

def areNames (forms : List OptionForm) (letters : Text) : Bool :=
  letters.all fun letter => forms.any fun form => form.name == ['-', letter]

/-- Whether the option of a name asks for the usage with what is attached to it: further letters may
follow a name of one letter, also after an equals sign. -/
def asksForHelp (forms : List OptionForm) (name : Text) : Option Attached → Bool
  | none => true
  | some (.afterEquals letters) => name.length = 2 && letters ≠ [] && areNames forms letters
  | some (.behindLetter letters) => areNames forms letters

/-- What the words of a command line give. -/
structure Reading where
  /-- The options with their arguments, flags with an empty word. -/
  options : List (Text × Argument) := []
  /-- The plain words and the divider, in blocks between options. -/
  blocks : List (List Word) := [[]]
  hasUnknown : Bool := false
  deriving DecidableEq, Repr

namespace Reading

def withWord (reading : Reading) (word : Word) : Reading :=
  match reading.blocks with
  | [] => { reading with blocks := [[word]] }
  | block :: rest => { reading with blocks := (word :: block) :: rest }

def withOption (reading : Reading) (name : Text) (argument : Argument) : Reading :=
  { reading with options := (name, argument) :: reading.options, blocks := [] :: reading.blocks }

def withUnknown (reading : Reading) : Reading :=
  { reading with blocks := [] :: reading.blocks, hasUnknown := true }

/-- The argument of an option, the last one when it is given more than once. -/
def argument? (reading : Reading) (name : Text) : Option Argument :=
  reading.options.reverse.lookup name

end Reading

/-- Reads words; every word is judged after those before it. -/
def read (forms : List OptionForm) : List Word → Except Ending Reading
  | [] => .ok {}
  | word :: rest =>
    match word.role with
    | .plain | .divider => return (← read forms rest).withWord word
    | .unknown => return (← read forms rest).withUnknown
    | .option form attached =>
      match form.demand, attached with
      | .help, attached =>
        if asksForHelp forms form.name attached then .error .help else .error .mistake
      | .flag, none => return (← read forms rest).withOption form.name (some [])
      | .flag, some _ => .error .mistake
      | .value allowed, some (.afterEquals value) | .value allowed, some (.behindLetter value) =>
        match argumentOf? allowed value with
        | some argument => return (← read forms rest).withOption form.name argument
        | none => .error .mistake
      | .value allowed, none =>
        match rest with
        | ⟨value, .plain⟩ :: others =>
          match argumentOf? allowed value with
          | some argument => return (← read forms others).withOption form.name argument
          | none => .error .mistake
        | _ => .error .mistake

/-- A place for plain words. -/
inductive Place
  | one
  /-- All words of a block, at least one; always the last place. -/
  | many
  deriving DecidableEq, Repr

/-- Plain words in their places, the places that are still empty, and whether words are left over. -/
structure Filling where
  groups : List (List Text) := []
  empty : List Place
  hasLeftover : Bool := false
  deriving DecidableEq, Repr

def Word.isDivider (word : Word) : Bool :=
  word.role == .divider

/-- The texts of a group of words; the first word of two hyphens is dropped. -/
def groupTexts (words : List Word) : List Text :=
  (words.map (·.text)).erase ['-', '-']

/-- Fills places with the words of one block: a single place takes one plain word with the dividers
around it. -/
def fillBlock : List Place → List Word → Filling
  | [], block => { empty := [], hasLeftover := !block.isEmpty }
  | .many :: places, block =>
    if block.all Word.isDivider then { empty := .many :: places, hasLeftover := !block.isEmpty }
    else { groups := [groupTexts block], empty := places }
  | .one :: places, block =>
    let dividers := block.takeWhile Word.isDivider
    match block.dropWhile Word.isDivider with
    | [] => { empty := .one :: places, hasLeftover := !block.isEmpty }
    | word :: rest =>
      let filling := fillBlock places (rest.dropWhile Word.isDivider)
      let group := dividers ++ word :: rest.takeWhile Word.isDivider
      { filling with groups := groupTexts group :: filling.groups }

def fill (places : List Place) : List (List Word) → Filling
  | [] => { empty := places }
  | block :: rest =>
    let first := fillBlock places block
    let others := fill first.empty rest
    { groups := first.groups ++ others.groups
      empty := others.empty
      hasLeftover := first.hasLeftover || others.hasLeftover }

/-- The options and the plain words of a command with the given options and places. -/
def arguments (forms : List OptionForm) (places : List Place) (words : List Text) :
    Except Ending (Reading × List (List Text)) := do
  let reading ← read forms (← classify forms words)
  let filling := fill places reading.blocks
  if reading.hasUnknown || filling.hasLeftover || !filling.empty.isEmpty then throw .mistake
  return (reading, filling.groups)

end Keyfile.Command
