import Keyfile.Value.Catalogue

/-!
# Custom objects

An object of a type of its own reads itself: a new object of the type is made, and tries to parse
the text. How it does that is known of its type only.
-/

namespace Keyfile

/-- An object: its type, what it holds, and the text that stands for it. -/
structure Custom where
  type : TypeName
  fields : List (Text × Text) := []
  text : Text := []
  deriving DecidableEq, Repr

/-- What comes of a new object that tries to parse a text. -/
inductive Attempt
  | parsed (object : Custom)
  | declined
  /-- Parsing ends in an error, which counts as if the object had declined. -/
  | failed
  /-- The object cannot be made, or parsing is broken off by more than an error. -/
  | escaped (message : Text)
  deriving DecidableEq, Repr

end Keyfile
