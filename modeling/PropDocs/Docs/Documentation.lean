import PropDocs.Engine.Basic
import PropDocs.TagMap

/-!
# Documentation of a symbol

The documentation of a symbol is its description, its tags by key, and the two together as one
text.  A symbol that cannot be documented has empty documentation.
-/

namespace PropDocs

open Text

/-- **Documentation.** -/
structure Documentation where
  description : String := ""
  /-- The description and the tag lines, with a blank line between them. -/
  fullText : String := ""
  tags : TagMap := .empty
  deriving DecidableEq, Inhabited

namespace Engine

variable {σ τ δ : Type}

/-- **Documentation of a symbol.** Line breaks in the description are single line feeds. -/
def documentation (e : Engine σ τ δ) (s : σ) : Documentation :=
  match e.documentation? s with
  | none => {}
  | some text =>
    let description := unifyString text
    let tagLines := (e.tags s).map RawTag.format
    { description
      fullText := trimString (description ++ "\n\n" ++ "\n".intercalate tagLines)
      tags := TagMap.ofLines tagLines }

end Engine

end PropDocs
