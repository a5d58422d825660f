import PropDocs.Docs.Filter

/-!
# Component documents

A document describes one exported interface, type alias or class.  `Engine.extract` makes the
documents of a list of files; of several documents with the same name the first one stays.
-/

namespace PropDocs

/-- **Method** of a component.  Extraction lists none. -/
structure MethodDoc where
  name : String
  description : String
  deriving DecidableEq, Repr, Inhabited

/-- **Component document.** -/
structure ComponentDoc where
  exportName : String
  description : String
  props : PropMap
  methods : List MethodDoc
  tags : TagMap
  deriving DecidableEq, Inhabited

namespace ComponentDoc

/-- The documents whose names are not in `seen` and were not seen before. -/
def dedupeFrom (seen : List String) : List ComponentDoc → List ComponentDoc
  | [] => []
  | d :: ds =>
    if seen.contains d.exportName then dedupeFrom seen ds
    else d :: dedupeFrom (d.exportName :: seen) ds

/-- **First of each name.** -/
def dedupe (docs : List ComponentDoc) : List ComponentDoc :=
  dedupeFrom [] docs

end ComponentDoc

namespace Engine

variable {σ τ δ : Type}

/-- A symbol is a contract: its first declaration is an interface, a type alias or a class. -/
def isContract (e : Engine σ τ δ) (s : σ) : Bool :=
  match e.declarations s with
  | [] => false
  | d :: _ => (e.kind d).isContract

/-- **Document of an export**; `none` when it is no contract. -/
def describe? (e : Engine σ τ δ) (o : ExtractionOptions) (s : σ) : Option ComponentDoc :=
  if e.isContract s then
    let doc := e.documentation s
    some
      { exportName := e.name s
        description := doc.description
        props := (e.propsOf o.extractEnums s).filter fun _ prop => o.keeps prop (e.name s)
        methods := []
        tags := doc.tags }
  else none

/-- The documents of one file. -/
def extractFile (e : Engine σ τ δ) (o : ExtractionOptions) (file : Path) : List ComponentDoc :=
  match e.module? file with
  | some m => (e.exports m).filterMap (e.describe? o)
  | none => []

/-- **Extraction.** The documents of a list of files. -/
def extract (e : Engine σ τ δ) (o : ExtractionOptions) (files : List Path) : List ComponentDoc :=
  ComponentDoc.dedupe (files.flatMap (e.extractFile o))

end Engine

end PropDocs
