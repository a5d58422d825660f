import PropDocs.Error
import PropDocs.Module.OfSource
import PropDocs.Source.Parser

/-!
# Modules from source texts

The module in a source text, by the path of its file: the path has to be absolute, and its
extension chooses the dialect.
-/

namespace PropDocs

open Source

/-- **Module of a source text.** -/
def SourceModule.ofText (path : Path) (text : String) : Except LoadError SourceModule :=
  if Path.isAbsolute path then
    match parseModule? (Dialect.ofPath path) text with
    | some items => .ok (SourceModule.ofItems path items)
    | none => .error (.sourceSyntax path)
  else .error (.invalidPath path)

end PropDocs
