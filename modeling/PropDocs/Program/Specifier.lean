import PropDocs.Compiler.Options
import PropDocs.Text.Blank

/-!
# Module specifiers

The file a module specifier stands for.  A relative specifier is seen from the directory of the
importing file, an absolute one stands for itself, and any other one is seen from the base
directory of the project.  From that base path a list of candidate files follows, and the first one
that exists is the answer.

* `Specifier.base?`: the base path;
* `Specifier.candidates`: the candidate files of a base path, in order;
* `Specifier.resolve?`: the first candidate that exists.
-/

namespace PropDocs.Specifier

/-- Extensions of files with types, in the order in which they are tried. -/
def typedExtensions : List String := ["ts", "tsx", "d.ts"]

/-- Extensions of script files, in the order in which they are tried. -/
def scriptExtensions : List String := ["js", "jsx"]

/-- What stands in front of a dot and an extension. -/
def stem? (extension : String) (p : Path) : Option Path :=
  (Text.beforeWord? ('.' :: extension.toList) p.toList).map String.ofList

/-- A path that ends with a dot and one of the given extensions. -/
def endsIn (extensions : List String) (p : Path) : Bool :=
  extensions.any fun e => (stem? e p).isSome

/-- A path with a dot and an extension behind it. -/
def withEnding (p : Path) (extension : String) : Path :=
  p ++ "." ++ extension

/-- **Sources of a script.** A script name written for the compiled output stands for the source it
is compiled from. -/
def sourcesOfScript (base : Path) : List Path :=
  match stem? "js" base, stem? "jsx" base with
  | some stem, _ => typedExtensions.map (withEnding stem)
  | none, some stem => [withEnding stem "tsx"]
  | none, none => []

/-- The extensions that may be left out of a specifier. -/
def extensions (allowJs : Bool) : List String :=
  typedExtensions ++ if allowJs then scriptExtensions else []

/-- **Candidates** of a base path, in the order in which they are tried. -/
def candidates (allowJs : Bool) (base : Path) : List Path :=
  (if endsIn typedExtensions base then [base] else []) ++
  sourcesOfScript base ++
  (if allowJs && endsIn scriptExtensions base then [base] else []) ++
  (extensions allowJs).map (withEnding base) ++
  (extensions allowJs).map fun e => Path.join base (withEnding "index" e)

/-- A specifier that is seen from the importing file. -/
def isRelative (specifier : String) : Bool :=
  (Text.afterWord? "./".toList specifier.toList).isSome ||
    (Text.afterWord? "../".toList specifier.toList).isSome || specifier == "." || specifier == ".."

/-- **Base path** of a specifier in the file `importer`. -/
def base? (options : CompilerOptions) (importer : Path) (specifier : String) : Option Path :=
  if isRelative specifier then
    (Path.parent? importer).map fun dir => Path.normalize (Path.join dir specifier)
  else if Path.isAbsolute specifier then some (Path.normalize specifier)
  else options.baseUrl.map fun dir => Path.normalize (Path.join dir specifier)

/-- **Lookup order.** The files a specifier may stand for. -/
def lookupOrder (options : CompilerOptions) (importer : Path) (specifier : String) : List Path :=
  match base? options importer specifier with
  | some base => candidates options.allowJs base
  | none => []

/-- **Resolution.** The first file of the lookup order that exists. -/
def resolve? (options : CompilerOptions) (present : Path → Bool) (importer : Path)
    (specifier : String) : Option Path :=
  (lookupOrder options importer specifier).find? present

end PropDocs.Specifier
