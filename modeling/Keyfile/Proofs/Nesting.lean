import Keyfile.Directive.Statement
import Keyfile.Key

/-!
# Nesting of blocks

Whether the blocks of a source text are well nested can be told from its statements alone. The
statements are looked at from first to last with the blocks that are open, the innermost first; of a
block it matters only which of its parts can still come.
-/

namespace Keyfile

/-- A block that is open while statements are looked at, with the line that opened it. -/
inductive Opening
  | conditional (line : Nat) (inElse : Bool)
  | choice (line : Nat) (hasDefault : Bool)
  | scope (line : Nat)
  deriving DecidableEq, Repr

namespace Nesting

def openedAt : Opening → Nat
  | .conditional line _ | .choice line _ | .scope line => line

/-- The open blocks after a directive, `none` when the directive does not fit. -/
def direct (line : Nat) (argument : Text) (openings : List Opening) :
    Directive → Option (List Opening)
  | .define | .set | .undefine => some openings
  | .ifBegin => some (.conditional line false :: openings)
  | .ifElse =>
    match openings with
    | .conditional begun false :: rest => some (.conditional begun true :: rest)
    | _ => none
  | .ifEnd =>
    match openings with
    | .conditional _ _ :: rest => some rest
    | _ => none
  | .switchBegin => if argument = [] then none else some (.choice line false :: openings)
  | .switchCase =>
    match openings with
    | .choice begun false :: rest => some (.choice begun false :: rest)
    | _ => none
  | .switchDefault =>
    match openings with
    | .choice begun false :: rest => some (.choice begun true :: rest)
    | _ => none
  | .switchEnd =>
    match openings with
    | .choice _ _ :: rest => some rest
    | _ => none
  | .sectionBegin =>
    if argument = [] || Text.includes Key.autoIndex argument then none
    else some (.scope line :: openings)
  | .sectionEnd =>
    match openings with
    | .scope _ :: rest => some rest
    | _ => none

/-- The open blocks after a statement, `none` when the statement does not fit. -/
def next (line : Nat) (openings : List Opening) : Statement → Option (List Opening)
  | .entry _ _ => some openings
  | .directive word argument => direct line argument openings word
  | .unknown _ => none

/-- The first line at which statements break the nesting. A block that is never closed breaks it at
the line that opened it. -/
def fault? : List Opening → List (Nat × Statement) → Option Nat
  | [], [] => none
  | opening :: _, [] => some (openedAt opening)
  | openings, (line, statement) :: rest =>
    match next line openings statement with
    | none => some line
    | some openings => fault? openings rest

/-- Whether the blocks of a source text are well nested. -/
def WellNested (text : Text) : Prop :=
  fault? [] (statements text) = none

instance (text : Text) : Decidable (WellNested text) :=
  inferInstanceAs (Decidable (fault? [] (statements text) = none))

end Nesting

end Keyfile
