import Keyfile.Table
import Keyfile.Template.Marker

/-!
# Rendering

Rendering a template puts the text of a tag in the place of the line below each marker of the tag;
the line keeps its ending. A replaced line is not looked at for a marker of its own. A marker
without a line below it, or whose tag has no text, changes nothing.
-/

namespace Keyfile.Template

/-- What rendering a template gives. -/
structure Rendering where
  content : Bytes
  replaced : Nat
  /-- The tags without a text, in the order of their markers. -/
  unknown : List Text
  deriving DecidableEq, Repr

namespace Rendering

def nothing : Rendering :=
  ⟨[], 0, []⟩

def prepend (bytes : Bytes) (rendering : Rendering) : Rendering :=
  { rendering with content := bytes ++ rendering.content }

end Rendering

def tagText? (encoding : Encoding) (line : Line) : Option Text :=
  (marker? line.content).map encoding.decodeForgiving

/-- The rendering of lines, none when a text has no bytes in the encoding; `texts` gives the texts
of the tags. -/
def renderLines (encoding : Encoding) (texts : Table) : List Line → Option Rendering
  | [] => some .nothing
  | [line] => some ⟨line.bytes, 0, []⟩
  | line :: target :: rest =>
    match tagText? encoding line with
    | none => (renderLines encoding texts (target :: rest)).map (·.prepend line.bytes)
    | some tag =>
      match texts.get? tag with
      | none =>
        (renderLines encoding texts (target :: rest)).map fun rendering =>
          { rendering.prepend line.bytes with unknown := tag :: rendering.unknown }
      | some text => do
        let replacement ← encoding.encode? text
        let rendering ← renderLines encoding texts rest
        return { rendering.prepend (line.bytes ++ replacement ++ target.ending) with
          replaced := rendering.replaced + 1 }

def render (encoding : Encoding) (texts : Table) (template : Bytes) : Option Rendering :=
  renderLines encoding texts (lines template)

end Keyfile.Template
