import Keyfile.Text.Basic

/-!
# Encodings

A text is stored in a file as bytes in one of three encodings. Reading is strict: bytes that the
encoding does not produce are refused. For messages and names there is also a forgiving reading,
which puts the replacement character in the place of each ill-formed sequence, as long as it can be
the beginning of a character.
-/

namespace Keyfile

/-- The contents of a file. -/
abbrev Bytes := List UInt8

/-- How texts are stored as bytes. -/
inductive Encoding
  | utf8
  | latin1
  | ascii
  deriving DecidableEq, Repr

namespace Encoding

def byte (n : Nat) : UInt8 :=
  UInt8.ofNat n

def utf8Bytes (c : Char) : Bytes :=
  let n := c.toNat
  if n < 0x80 then [byte n]
  else if n < 0x800 then [byte (0xc0 + n / 64), byte (0x80 + n % 64)]
  else if n < 0x10000 then
    [byte (0xe0 + n / 4096), byte (0x80 + n / 64 % 64), byte (0x80 + n % 64)]
  else
    [byte (0xf0 + n / 262144), byte (0x80 + n / 4096 % 64), byte (0x80 + n / 64 % 64),
      byte (0x80 + n % 64)]

def encodeChar? (encoding : Encoding) (c : Char) : Option Bytes :=
  match encoding with
  | utf8 => some (utf8Bytes c)
  | latin1 => if c.toNat < 0x100 then some [byte c.toNat] else none
  | ascii => if c.toNat < 0x80 then some [byte c.toNat] else none

/-- The bytes of a text, if the encoding has bytes for each of its characters. -/
def encode? (encoding : Encoding) (t : Text) : Option Bytes :=
  (t.mapM encoding.encodeChar?).map List.flatten

/-- How many bytes follow the first byte of a character and the range of the first of them. -/
def followers? (first : Nat) : Option (Nat × Nat × Nat) :=
  if 0xc2 ≤ first && first ≤ 0xdf then some (1, 0x80, 0xbf)
  else if first == 0xe0 then some (2, 0xa0, 0xbf)
  else if first == 0xed then some (2, 0x80, 0x9f)
  else if 0xe1 ≤ first && first ≤ 0xef then some (2, 0x80, 0xbf)
  else if first == 0xf0 then some (3, 0x90, 0xbf)
  else if first == 0xf4 then some (3, 0x80, 0x8f)
  else if 0xf1 ≤ first && first ≤ 0xf3 then some (3, 0x80, 0xbf)
  else none

/-- How many of the next `count` bytes continue a character, the first of them being from `low` to
`high`. -/
def continuing (low high : Nat) : Nat → Bytes → Nat
  | 0, _ => 0
  | _ + 1, [] => 0
  | count + 1, b :: rest =>
    if low ≤ b.toNat && b.toNat ≤ high then continuing 0x80 0xbf count rest + 1 else 0

/-- The bits that the first byte of a character with `count` followers contributes. -/
def leadBits (first count : Nat) : Nat :=
  match count with
  | 1 => first - 0xc0
  | 2 => first - 0xe0
  | _ => first - 0xf0

/-- The character at the start of a sequence of bytes, `none` when they are ill-formed, and the
number of bytes that it or the ill-formed part takes. -/
def utf8Head (first : UInt8) (rest : Bytes) : Option Char × Nat :=
  let n := first.toNat
  if n < 0x80 then (some (Char.ofNat n), 1)
  else
    match followers? n with
    | none => (none, 1)
    | some (count, low, high) =>
      let found := continuing low high count rest
      if found < count then (none, found + 1)
      else
        let bits := (rest.take count).foldl (fun bits b => bits * 64 + (b.toNat - 0x80))
          (leadBits n count)
        (some (Char.ofNat bits), count + 1)

/-- The characters of bytes in UTF-8, `none` standing for each ill-formed part. -/
def utf8Characters (bytes : Bytes) : List (Option Char) :=
  match bytes with
  | [] => []
  | first :: rest =>
    let head := utf8Head first rest
    head.1 :: utf8Characters (rest.drop (head.2 - 1))
termination_by bytes.length

def characters (encoding : Encoding) (bytes : Bytes) : List (Option Char) :=
  match encoding with
  | utf8 => utf8Characters bytes
  | latin1 => bytes.map fun b => some (Char.ofNat b.toNat)
  | ascii => bytes.map fun b => if b.toNat < 0x80 then some (Char.ofNat b.toNat) else none

def decode? (encoding : Encoding) (bytes : Bytes) : Option Text :=
  (encoding.characters bytes).mapM id

def decodeForgiving (encoding : Encoding) (bytes : Bytes) : Text :=
  (encoding.characters bytes).map (·.getD (Char.ofNat 0xfffd))

end Encoding

end Keyfile
