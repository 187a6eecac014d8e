import Keyfile.Proofs.LetterCase
import Keyfile.Proofs.Unrecorded

/-!
# Passes that are alike

Two passes are alike when their names differ in the case of letters at most, one text stands some
lines below the other, and no more than the marks of written keys tells their stores apart. Lower
case hides how a name is written, so alike tables and stores answer and grow alike.
-/

namespace Keyfile

/-- In what two passes may differ. -/
structure Likeness where
  letter : Char → Char → Prop
  refl (c : Char) : letter c c
  recases (c d : Char) : letter c d → SameLetter c d
  /-- How many lines the second text stands below the first. -/
  shift : Nat
  /-- How the keys that count as written are related. -/
  marks : List Text → List Text → Prop
  marks_cons {keys keys' : List Text} (key : Text) :
    marks keys keys' → marks (key :: keys) (key :: keys')

namespace Likeness

variable (l : Likeness)

def Name : Text → Text → Prop :=
  List.Forall₂ l.letter

/-- The same value under alike names. -/
def Entry (entry entry' : Text × Text) : Prop :=
  l.Name entry.1 entry'.1 ∧ entry.2 = entry'.2

def Tables (table table' : Table) : Prop :=
  List.Forall₂ l.Entry table.entries table'.entries

def Waiting (queue queue' : Queue) : Prop :=
  l.Name queue.base queue'.base ∧ queue.values = queue'.values

structure Stores (store store' : Store) : Prop where
  items : l.Tables store.items store'.items
  queues : List.Forall₂ l.Waiting store.queues store'.queues
  explicit : l.marks store.explicit store'.explicit

def Scopes : Option Text → Option Text → Prop :=
  Option.Rel l.Name

inductive Blocks : Block → Block → Prop
  | ifBlock (block : IfBlock) :
      Blocks (.ifBlock block) (.ifBlock { block with line := block.line + l.shift })
  | switchBlock (block : SwitchBlock) :
      Blocks (.switchBlock block) (.switchBlock { block with line := block.line + l.shift })
  | sectionBlock {outerScope outerScope' : Option Text} (hscope : l.Scopes outerScope outerScope')
      {name name' : Text} (hname : l.Name name name') (outerEnabled : Bool) (line : Nat) :
      Blocks (.sectionBlock { outerEnabled, outerScope, name, line })
        (.sectionBlock
          { outerEnabled, outerScope := outerScope', name := name', line := line + l.shift })

structure Passes (pass pass' : Pass) : Prop where
  blocks : List.Forall₂ l.Blocks pass.blocks pass'.blocks
  scope : l.Scopes pass.scope pass'.scope
  macros : l.Tables pass.macros pass'.macros
  store : l.Stores pass.store pass'.store

/-- Alike wordings, of which a text is named at its line. -/
inductive Errors : LoadError → LoadError → Prop
  | format {cause cause' : FormatCause} (h : l.Name cause.message cause'.message) (line : Nat) :
      Errors (.at_ line cause) (.at_ (line + l.shift) cause')
  | expansion (error : ExpansionError) : Errors (.expansion error) (.expansion error)

/-- Arguments of definitions: alike names before the same text. -/
def Definitions (argument argument' : Text) : Prop :=
  Option.Rel l.Entry (Text.firstWord argument) (Text.firstWord argument')

/-- Arguments of a directive that differ where it takes a name. -/
inductive Arguments : Directive → Text → Text → Prop
  | same (word : Directive) (argument : Text) : Arguments word argument argument
  | definition {word : Directive} (hword : word ∈ [.define, .set, .undefine])
      {argument argument' : Text} (h : l.Definitions argument argument') :
      Arguments word argument argument'
  | name {word : Directive} (hword : word ∈ [.ifBegin, .switchCase, .sectionBegin])
      {argument argument' : Text} (h : l.Name argument argument') : Arguments word argument argument'
  /-- A switch without references names a value. -/
  | expression {argument argument' : Text} (h : l.Name argument argument')
      (hplain : hasReferences argument = false) : Arguments .switchBegin argument argument'

inductive Statements : Statement → Statement → Prop
  | entry {key key' : Text} (h : l.Name key key') (value : Text) :
      Statements (.entry key value) (.entry key' value)
  | directive {word : Directive} {argument argument' : Text}
      (h : l.Arguments word argument argument') :
      Statements (.directive word argument) (.directive word argument')
  | unknown {line line' : Text} (h : l.Name line line') : Statements (.unknown line) (.unknown line')

def Numbered (first second : Nat × Statement) : Prop :=
  second.1 = first.1 + l.shift ∧ l.Statements first.2 second.2

/-- Rules that give alike results or fail with alike wordings. -/
inductive Rules {α β : Type} (results : α → β → Prop) :
    Except FormatCause α → Except FormatCause β → Prop
  | ok {a : α} {b : β} (h : results a b) : Rules results (.ok a) (.ok b)
  | error {cause cause' : FormatCause} (h : l.Name cause.message cause'.message) :
      Rules results (.error cause) (.error cause')

variable {l}

lemma Name.refl (t : Text) : l.Name t t :=
  List.forall₂_same.2 fun c _ => l.refl c

lemma Name.recased {s t : Text} (h : l.Name s t) : Recased s t :=
  h.imp l.recases

lemma Name.lower_eq {s t : Text} (h : l.Name s t) : Text.lower s = Text.lower t :=
  h.recased.lower_eq

lemma Name.append {s t s' t' : Text} (h : l.Name s t) (h' : l.Name s' t') :
    l.Name (s ++ s') (t ++ t') :=
  List.rel_append h h'

lemma Entry.refl (entry : Text × Text) : l.Entry entry entry :=
  ⟨.refl entry.1, rfl⟩

lemma Tables.refl (table : Table) : l.Tables table table :=
  List.forall₂_same.2 fun entry _ => .refl entry

lemma Statements.refl (statement : Statement) : l.Statements statement statement := by
  cases statement with
  | entry key value => exact .entry (.refl key) value
  | directive word argument => exact .directive (.same word argument)
  | unknown line => exact .unknown (.refl line)

namespace Tables

variable {table table' : Table} {name name' : Text}

lemma keys_eq (h : l.Tables table table') : table.keys = table'.keys := by
  obtain ⟨entries⟩ := table
  obtain ⟨entries'⟩ := table'
  simp only [Tables, Table.keys] at h ⊢
  induction h with
  | nil => rfl
  | cons hentry _ ih => rw [List.map_cons, List.map_cons, hentry.1.lower_eq, ih]

/-- A name is looked up alike however it is written. -/
lemma get?_eq (h : l.Tables table table') (hname : Text.lower name = Text.lower name') :
    table.get? name = table'.get? name' := by
  obtain ⟨entries⟩ := table
  obtain ⟨entries'⟩ := table'
  simp only [Tables, Table.get?, hname] at h ⊢
  induction h with
  | nil => rfl
  | cons hentry _ ih =>
    rw [List.find?_cons, List.find?_cons, hentry.1.lower_eq]
    split
    · exact congrArg some hentry.2
    · exact ih

lemma contains_eq (h : l.Tables table table') (hname : Text.lower name = Text.lower name') :
    table.contains name = table'.contains name' := by
  rw [Table.contains, Table.contains, h.get?_eq hname]

lemma insert (h : l.Tables table table') (hname : l.Name name name') (value : Text) :
    l.Tables (table.insert name value) (table'.insert name' value) := by
  obtain ⟨entries⟩ := table
  obtain ⟨entries'⟩ := table'
  simp only [Tables, Table.insert, hname.lower_eq] at h ⊢
  induction h with
  | nil => exact .cons ⟨hname, rfl⟩ .nil
  | cons hentry hrest ih =>
    rw [place, place, hentry.1.lower_eq]
    split
    · exact .cons ⟨hname, rfl⟩ hrest
    · exact .cons hentry ih

lemma erase (h : l.Tables table table') (hname : Text.lower name = Text.lower name') :
    l.Tables (table.erase name) (table'.erase name') := by
  unfold Tables Table.erase
  apply List.rel_filter _ h
  intro entry entry' hentry
  dsimp only
  rw [hentry.1.lower_eq, hname]

lemma ofTable_eq (h : l.Tables table table') :
    (Source.ofTable table : Source Id) = .ofTable table' := by
  have hask : ∀ name, table.get? name = table'.get? name := fun name => h.get?_eq rfl
  simp only [Source.ofTable, h.keys_eq, hask]

end Tables

namespace Stores

variable {store store' : Store} {key key' base base' : Text}

lemma set (h : l.Stores store store') (hkey : l.Name key key') (value : Text) :
    l.Stores (store.set key value) (store'.set key' value) where
  items := h.items.insert hkey value
  queues := h.queues
  explicit := by
    have hmarks := l.marks_cons (Text.lower key) h.explicit
    rwa [Store.set, Store.set, ← hkey.lower_eq]

lemma append (h : l.Stores store store') (hbase : l.Name base base') (value : Text) :
    l.Stores (store.append base value) (store'.append base' value) where
  items := h.items
  queues := by
    have henqueue : ∀ {queues queues' : List Queue}, List.Forall₂ l.Waiting queues queues' →
        List.Forall₂ l.Waiting (Store.enqueue base value queues)
          (Store.enqueue base' value queues') := by
      intro queues queues' hqueues
      induction hqueues with
      | nil => exact .cons ⟨hbase, rfl⟩ .nil
      | cons hqueue hrest ih =>
        rw [Store.enqueue, Store.enqueue, sameName, sameName, hqueue.1.lower_eq, hbase.lower_eq]
        split
        · exact .cons ⟨hqueue.1, by rw [hqueue.2]⟩ hrest
        · exact .cons hqueue ih
    exact henqueue h.queues
  explicit := h.explicit

end Stores

namespace Passes

variable {pass pass' : Pass} (h : l.Passes pass pass')

include h

lemma enabled_eq : pass.enabled = pass'.enabled := by
  unfold Pass.enabled
  have hblocks := h.blocks
  revert hblocks
  generalize pass.blocks = blocks
  generalize pass'.blocks = blocks'
  rintro (_ | ⟨hblock, -⟩)
  · rfl
  · cases hblock <;> rfl

/-- An entry is entered under alike full keys, or waits in alike queues. -/
lemma enter {key key' : Text} (hkey : l.Name key key') (value : Text) :
    l.Passes (pass.enter key value) (pass'.enter key' value) := by
  have hfull : l.Name (Key.qualify pass.scope key) (Key.qualify pass'.scope key') :=
    Key.forall₂_qualify l.recases l.refl h.scope hkey
  have hauto : Key.autoIndex.isSuffixOf (Key.qualify pass.scope key) =
      Key.autoIndex.isSuffixOf (Key.qualify pass'.scope key') :=
    hfull.recased.isSuffixOf_eq (by decide)
  refine ⟨h.blocks, h.scope, h.macros, ?_⟩
  unfold Pass.enter
  dsimp only
  rw [hauto]
  split
  · rw [hfull.length_eq]
    exact h.store.append (List.forall₂_take _ hfull) value
  · exact h.store.set hfull value

lemma source_eq (external : Source Id) : pass.source external = pass'.source external := by
  rw [Pass.source, Pass.source, h.macros.ofTable_eq, h.store.items.ofTable_eq]

lemma expand_eq (external : Source Id) (t : Text) :
    pass.expand external t = pass'.expand external t := by
  rw [Pass.expand, Pass.expand, h.source_eq]

lemma push {block block' : Block} (hblock : l.Blocks block block') :
    l.Passes (pass.push block) (pass'.push block') :=
  ⟨.cons hblock h.blocks, h.scope, h.macros, h.store⟩

end Passes

end Likeness

end Keyfile
