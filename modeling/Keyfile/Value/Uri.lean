import Keyfile.Text.Blank
import Keyfile.Text.Hexadecimal
import Keyfile.Value.Address

/-!
# Absolute URIs

A text is an absolute URI when it has a scheme of at least two characters and an authority or a
path. Control characters and spaces in front and line breaks and tabs anywhere are passed over when
the parts are looked for. An authority with brackets has to hold a well-formed address in them, and
no character of an authority may stand for one that separates parts.
-/

namespace Keyfile.Uri

/-- The parts of a URI that decide whether it is absolute. -/
structure Parts where
  scheme : Text
  authority : Text
  path : Text
  deriving DecidableEq, Repr

def isIgnored (c : Char) : Bool :=
  c == '\t' || c == '\n' || c == '\r'

def withoutIgnored (t : Text) : Text :=
  (t.dropWhile fun c => c.toNat ≤ 0x20).filter (!isIgnored ·)

def isLetter (c : Char) : Bool :=
  ('a' ≤ c && c ≤ 'z') || ('A' ≤ c && c ≤ 'Z')

def isSchemeCharacter (c : Char) : Bool :=
  isLetter c || ('0' ≤ c && c ≤ '9') || c == '+' || c == '-' || c == '.'

/-- The scheme and what follows it; a text without a scheme has the empty one. -/
def splitScheme (t : Text) : Text × Text :=
  match Text.cutAt ':' t with
  | some (first :: scheme, rest) =>
    if isLetter first && scheme.all isSchemeCharacter then (first :: scheme, rest) else ([], t)
  | _ => ([], t)

def endsAuthority (c : Char) : Bool :=
  c == '/' || c == '?' || c == '#'

/-- The authority and what follows it; a text that does not begin with two slashes has none. -/
def splitAuthority (t : Text) : Text × Text :=
  match t with
  | '/' :: '/' :: rest =>
    (rest.takeWhile (!endsAuthority ·), rest.dropWhile (!endsAuthority ·))
  | _ => ([], t)

def pathOf (t : Text) : Text :=
  t.takeWhile fun c => c != '?' && c != '#'

/-- Whether a text is an address of a future version: a version in hexadecimal and a remainder. -/
def isFutureAddress (afterV : Text) : Bool :=
  match afterV.dropWhile fun c => (Text.hexValue? c).isSome with
  | '.' :: _ :: _ => (afterV.head?.bind Text.hexValue?).isSome
  | _ => false

def isBracketedHost (t : Text) : Bool :=
  match t with
  | 'v' :: rest => isFutureAddress rest
  | _ =>
    match Address.ofText? t with
    | some (.long ..) => true
    | _ => false

def hostAndPort (authority : Text) : Text :=
  match Text.cutLastAt '@' authority with
  | some (_, rest) => rest
  | none => authority

/-- The part of a text before the first character `mark`, all of it when there is none. -/
def before (mark : Char) (t : Text) : Text :=
  t.takeWhile (· != mark)

/-- Whether the brackets of an authority are well placed and hold an address. -/
def bracketsWellFormed (authority : Text) : Bool :=
  let host := hostAndPort authority
  match Text.cutAt '[' host with
  | none => isBracketedHost (before ':' host)
  | some (outside, rest) =>
    let port := (rest.dropWhile (· != ']')).drop 1
    outside.isEmpty && (port.isEmpty || port.head? == some ':') && isBracketedHost (before ']' rest)

/-- Code points beyond ASCII whose compatibility decomposition holds a separator of URI parts. -/
def separatorLookalikes : List Nat :=
  [0x2047, 0x2048, 0x2049, 0x2100, 0x2101, 0x2105, 0x2106, 0x2a74, 0xfe13, 0xfe16, 0xfe55, 0xfe56,
    0xfe5f, 0xfe6b, 0xff03, 0xff0f, 0xff1a, 0xff1f, 0xff20]

/-- Whether an authority is free of misplaced brackets and of characters that stand for
separators. -/
def isAuthority (authority : Text) : Bool :=
  let opened := authority.contains '['
  let closed := authority.contains ']'
  opened == closed && (!opened || bracketsWellFormed authority) &&
    !authority.any fun c => separatorLookalikes.contains c.toNat

def parts? (t : Text) : Option Parts :=
  let (scheme, rest) := splitScheme (withoutIgnored t)
  let (authority, rest) := splitAuthority rest
  if isAuthority authority then some ⟨scheme, authority, pathOf rest⟩ else none

def ofText? (t : Text) : Option Text := do
  let t := Text.trim t
  let parts ← parts? t
  guard (2 ≤ parts.scheme.length && !(parts.authority.isEmpty && parts.path.isEmpty))
  return t

end Keyfile.Uri
