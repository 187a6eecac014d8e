import Keyfile.Key
import Keyfile.Table

/-!
# Key stores

A store holds raw values under keys without case. Values written under `base[-]` wait in a queue
of their base until they are merged into `base[0]`, `base[1]`, and so on; a position that was
written explicitly since the last merge keeps its explicit value. Arrays, dictionaries and sections
are read off the keys.
-/

namespace Keyfile

/-- Values waiting for the next free positions of an array, in the order of their writing. -/
structure Queue where
  /-- The name of the array as first written. -/
  base : Text
  values : List Text
  deriving DecidableEq

/-- Raw values under keys, with what the next merge has to know. -/
structure Store where
  items : Table := {}
  /-- The waiting values, one queue for each base. -/
  queues : List Queue := []
  /-- The keys written since the last merge, in lower case. -/
  explicit : List Text := []
  deriving DecidableEq, Inhabited

namespace Store

/-- The store of a table of items: nothing waits and no key counts as written. -/
def ofItems (items : Table) : Store :=
  { items }

def get? (store : Store) (key : Text) : Option Text :=
  store.items.get? key

def set (store : Store) (key value : Text) : Store :=
  { store with
    items := store.items.insert key value
    explicit := Text.lower key :: store.explicit }

def remove (store : Store) (key : Text) : Store :=
  { store with
    items := store.items.erase key
    explicit := store.explicit.filter (· != Text.lower key) }

def enqueue (base value : Text) : List Queue → List Queue
  | [] => [⟨base, [value]⟩]
  | queue :: rest =>
    if sameName queue.base base then { queue with values := queue.values ++ [value] } :: rest
    else queue :: enqueue base value rest

def append (store : Store) (base value : Text) : Store :=
  { store with queues := enqueue base value store.queues }

/-- The keys that values get when they fill the positions of `base` from `index` on. -/
def positions (base : Text) (index : Nat) : List Text → List (Text × Text)
  | [] => []
  | value :: rest => (Key.indexed base index, value) :: positions base (index + 1) rest

/-- The waiting values under the keys that the merge gives them. -/
def queued (store : Store) : List (Text × Text) :=
  store.queues.flatMap fun queue => positions queue.base 0 queue.values

def isExplicit (store : Store) (key : Text) : Bool :=
  store.explicit.contains (Text.lower key)

/-- The keys of waiting values that an explicit write overrides. -/
def overridden (store : Store) : List Text :=
  (store.queued.filter fun pair => store.isExplicit pair.1).map (·.1)

/-- The waiting values that the merge writes. -/
def admitted (store : Store) : List (Text × Text) :=
  store.queued.filter fun pair => !store.isExplicit pair.1

def merge (store : Store) : Store :=
  ofItems (store.admitted.foldl (fun items pair => items.insert pair.1 pair.2) store.items)

def size (store : Store) : Nat :=
  store.items.size

def keys (store : Store) : List Text :=
  store.items.keys

/-- Whether the name is a key or the parent of one. -/
def covers (store : Store) (name : Text) : Bool :=
  let low := Text.lower name
  store.items.contains name ||
    store.keys.any fun key =>
      (low ++ ['.']).isPrefixOf key || (low ++ ['[']).isPrefixOf key

/-- The values of an array from position `index` on, up to the first gap; at most `bound`. -/
def arrayFrom (store : Store) (base : Text) (index : Nat) : Nat → List Text
  | 0 => []
  | bound + 1 =>
    match store.get? (Key.indexed base index) with
    | none => []
    | some value => value :: arrayFrom store base (index + 1) bound

/-- The values of `base[0]`, `base[1]`, and so on up to the first gap. -/
def array (store : Store) (base : Text) : List Text :=
  store.arrayFrom base 0 store.size

def dictionary (store : Store) (base : Text) : Record :=
  Record.ofPairs <| store.items.entries.filterMap fun entry =>
    match Key.splitIndexed entry.1 with
    | some (parent, name) => if sameName parent base then some (name, entry.2) else none
    | none => none

def hasSection (store : Store) (base : Text) (index : Nat) : Bool :=
  let head := Text.lower (Key.indexed base index ++ ['.'])
  store.keys.any fun key => head.isPrefixOf key

/-- The number of sections of `base` from `index` on, up to the first gap; at most `bound`. -/
def sectionCountFrom (store : Store) (base : Text) (index : Nat) : Nat → Nat
  | 0 => 0
  | bound + 1 =>
    if store.hasSection base index then sectionCountFrom store base (index + 1) bound + 1 else 0

/-- The number of sections `base[0].…`, `base[1].…`, and so on up to the first gap. -/
def sectionCount (store : Store) (base : Text) : Nat :=
  store.sectionCountFrom base 0 store.size

def scopeHead (scope : Text) : Text :=
  Text.lower (Text.dropTail (· == '.') scope) ++ ['.']

/-- The keys below a scope, relative to it, with their raw values; all keys without a scope. -/
def below (store : Store) (scope : Option Text) : List (Text × Text) :=
  match scope with
  | none | some [] => store.items.entries
  | some scope =>
    let head := scopeHead scope
    store.items.entries.filterMap fun entry =>
      if head.isPrefixOf (Text.lower entry.1) then some (entry.1.drop head.length, entry.2)
      else none

/-- A short description: the number of keys. -/
def describe (store : Store) : Text :=
  "KeyStore(keys=".toList ++ Text.ofNat store.size ++ [')']

end Store

end Keyfile
