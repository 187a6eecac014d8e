/-!
# Texts

A text is a list of characters, so every operation of the library is a recursion on the data.
This module holds the searches and cuts that the other modules build on: cutting a text at the
first occurrence of a mark, at the last occurrence of a character, at every occurrence of a
character, and joining parts with a separator.
-/

namespace Keyfile

/-- A text is the list of its characters. -/
abbrev Text := List Char

namespace Text

/-- The part before and the part after the first occurrence of `mark`. -/
def cutFirst (mark : Text) : Text → Option (Text × Text)
  | [] => if mark = [] then some ([], []) else none
  | c :: rest =>
    if mark.isPrefixOf (c :: rest) then some ([], (c :: rest).drop mark.length)
    else (cutFirst mark rest).map fun parts => (c :: parts.1, parts.2)

def cutAt (mark : Char) : Text → Option (Text × Text)
  | [] => none
  | c :: rest =>
    if c = mark then some ([], rest)
    else (cutAt mark rest).map fun parts => (c :: parts.1, parts.2)

def cutLastAt (mark : Char) : Text → Option (Text × Text)
  | [] => none
  | c :: rest =>
    match cutLastAt mark rest with
    | some parts => some (c :: parts.1, parts.2)
    | none => if c = mark then some ([], rest) else none

/-- The parts between the characters `mark`; a text without the mark is its own only part. -/
def splitAt (mark : Char) : Text → List Text
  | [] => [[]]
  | c :: rest =>
    if c = mark then [] :: splitAt mark rest
    else
      match splitAt mark rest with
      | [] => [[c]]
      | part :: parts => (c :: part) :: parts

/-- The text without its longest tail of characters that satisfy `p`. -/
def dropTail (p : Char → Bool) (t : Text) : Text :=
  (t.reverse.dropWhile p).reverse

def includes (mark t : Text) : Bool :=
  (cutFirst mark t).isSome

/-- The parts with the separator between neighbours. -/
def join (separator : Text) : List Text → Text
  | [] => []
  | [part] => part
  | part :: parts => part ++ separator ++ join separator parts

def ofNat (n : Nat) : Text :=
  Nat.toDigits 10 n

/-- The decimal digits of an integer, with a minus sign when it is negative. -/
def ofInt : Int → Text
  | .ofNat n => ofNat n
  | .negSucc n => '-' :: ofNat (n + 1)

/-- The code points of two texts decide their order, the shorter of two equal beginnings first. -/
def precedes : Text → Text → Bool
  | [], _ => true
  | _ :: _, [] => false
  | a :: s, b :: t => if a = b then precedes s t else a.toNat < b.toNat

end Text

end Keyfile
