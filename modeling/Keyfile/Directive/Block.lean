import Keyfile.Text.Basic

/-!
# Open blocks

While a source text is carried out, each conditional, switch and section that is not yet closed is
an open block. A block remembers whether the text around it is carried out, so that the innermost
block alone tells whether the next statement is.
-/

namespace Keyfile

structure IfBlock where
  /-- Whether the text around the block is carried out. -/
  outerEnabled : Bool
  /-- What the condition came to when the block was opened. -/
  condition : Bool
  line : Nat
  inElse : Bool := false
  deriving DecidableEq, Repr

structure SwitchBlock where
  /-- Whether the text around the block is carried out. -/
  outerEnabled : Bool
  value : Text
  line : Nat
  matched : Bool := false
  enabled : Bool := false
  hasDefault : Bool := false
  deriving DecidableEq, Repr

structure SectionBlock where
  /-- Whether the text around the block is carried out. -/
  outerEnabled : Bool
  outerScope : Option Text
  name : Text
  line : Nat
  deriving DecidableEq, Repr

/-- A block that is not yet closed. -/
inductive Block
  | ifBlock (block : IfBlock)
  | switchBlock (block : SwitchBlock)
  | sectionBlock (block : SectionBlock)
  deriving DecidableEq, Repr

/-- A conditional is carried out in its first branch when the condition held, else in its second. -/
def IfBlock.enabled (block : IfBlock) : Bool :=
  block.outerEnabled && (block.condition != block.inElse)

namespace Block

def enabled : Block → Bool
  | ifBlock block => block.enabled
  | switchBlock block => block.enabled
  | sectionBlock block => block.outerEnabled

def line : Block → Nat
  | ifBlock block => block.line
  | switchBlock block => block.line
  | sectionBlock block => block.line

end Block

end Keyfile
