import Interlinear.Document.Basic
import Interlinear.Gloss.Printer

/-!
# Rendering documents

Rendering copies the segments that pass through and replaces every gloss by its translation.  With
sources, a translation stands in an element of its own and is followed by the canonical text of its
gloss.
-/

namespace Interlinear.Document

/-- A translation that fails with an error of type `ε`, or a source that has no written form. -/
inductive RenderError (ε : Type) where
  | translation (error : ε)
  | source (error : Gloss.PrintError)

def withSource (translation source : String) : String :=
  "<x-out>" ++ translation ++ "<x-src>" ++ source ++ "</x-src></x-out>"

variable {ε : Type}

def renderSegment (translate : Gloss → Except ε String) (sources : Bool) :
    Segment → Except (RenderError ε) String
  | .passthrough text => .ok text
  | .glossed gloss => do
      let translation ← (translate gloss).mapError .translation
      if sources then do
        let source ← (gloss.print .implicitPointers).mapError .source
        .ok (withSource translation source)
      else
        .ok translation

def render (translate : Gloss → Except ε String) (sources : Bool) :
    List Segment → Except (RenderError ε) String
  | [] => .ok ""
  | segment :: segments => do
      let first ← renderSegment translate sources segment
      let others ← render translate sources segments
      .ok (first ++ others)

/-- A document that does not read, or does not render. -/
inductive Error (ε : Type) where
  | parse (error : Gloss.ParseError)
  | render (error : RenderError ε)

def translate (translate : Gloss → Except ε String) (sources : Bool) (raw : String) :
    Except (Error ε) String := do
  let segments ← (parse raw).mapError .parse
  (render translate sources segments).mapError .render

end Interlinear.Document
