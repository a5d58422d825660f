import PropDocs.Docs.Component
import PropDocs.Program.Build
import PropDocs.Program.Symbols

/-!
# Extraction from files

The documents of source files on disk: a program is built over them, and its engine is asked.
-/

namespace PropDocs

/-- **Documents of files.** -/
def extractFiles (disk : FileSystem) (compiler : CompilerOptions) (options : ExtractionOptions)
    (files : List Path) : Except LoadError (List ComponentDoc) := do
  let p ← Program.build { disk } compiler files
  return (p.engine disk.cwd).extract options files

end PropDocs
