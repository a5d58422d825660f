import PropDocs.Compiler.Options
import PropDocs.FileSystem
import PropDocs.Json.Comments
import PropDocs.Json.Reader
import PropDocs.Json.Record

/-!
# Compiler configuration files

A configuration is a JSON file with comments.  It may extend another one, which may extend a third:
the files form a chain, and each option has the value of the first file in the chain that sets it.

* `ConfigFile.read?`: the options one file sets;
* `ConfigFile.parent?`: the path of the file it extends.  Only relative names are followed;
* `configChain`: the files of a chain, nearest first.  A file that occurs twice is an error, and so
  is one that cannot be read;
* `CompilerOptions.load`: the options of a chain.
-/

namespace PropDocs

/-- **Configuration file.** What one file sets. -/
structure ConfigFile where
  path : Path
  parentName : Option String := none
  strict : Option Bool := none
  strictNullChecks : Option Bool := none
  allowJs : Option Bool := none
  baseUrl : Option String := none
  deriving DecidableEq, Repr, Inhabited

namespace ConfigFile

/-! ### Reading one file -/

/-- The options a JSON value sets, for the file at `path`. -/
def readOptions? (path : Path) (parentName : Option String) (v : Json) : Option ConfigFile :=
  match v.slots? ["strict", "strictNullChecks", "allowJs", "baseUrl"] false with
  | some [strict, nullChecks, allowJs, baseUrl] => do
    return { path, parentName
             strict := ← strict.nullable Json.asBool?
             strictNullChecks := ← nullChecks.nullable Json.asBool?
             allowJs := ← allowJs.nullable Json.asBool?
             baseUrl := ← baseUrl.nullable Json.asText? }
  | _ => none

/-- The configuration in a JSON value. -/
def ofJson? (path : Path) (v : Json) : Option ConfigFile :=
  match v.slots? ["extends", "compilerOptions"] false with
  | some [parent, options] => do
    let parentName ← parent.nullable Json.asText?
    options.withDefault (readOptions? path parentName) { path, parentName }
  | _ => none

/-- **Reading.** The configuration in a text; `none` when the text is not of the right form. -/
def read? (path : Path) (text : String) : Option ConfigFile := do
  ofJson? path (← Json.read? (Json.plainText text))

/-! ### The chain -/

/-- The directory of a configuration. -/
def directory (c : ConfigFile) : Path :=
  (Path.parent? c.path).getD "/"

/-- A name that is followed: it starts with one or two dots and a slash. -/
def isRelativeName (name : String) : Bool :=
  (Text.afterWord? "./".toList name.toList).isSome ||
    (Text.afterWord? "../".toList name.toList).isSome

/-- **Parent.** The path of the file a configuration extends; a name without an extension gets
`json`. -/
def parent? (c : ConfigFile) : Option Path :=
  match c.parentName with
  | some name =>
    if isRelativeName name then
      let target := Path.normalize (Path.join c.directory name)
      some (if (Path.extension? target).isNone then Path.withExtension target "json" else target)
    else none
  | none => none

/-- The base directory a configuration sets, seen from its own directory. -/
def basePath? (c : ConfigFile) : Option Path :=
  c.baseUrl.map fun base => Path.normalize (Path.join c.directory base)

/-- The configuration in the file at a path. -/
def load (fs : FileSystem) (path : Path) : Except LoadError ConfigFile :=
  match fs.read path with
  | .error cause => .error (.config path (.unreadable cause))
  | .ok text =>
    match read? path text with
    | some c => .ok c
    | none => .error (.config path .malformed)

end ConfigFile

/-- **Chain of configurations** from `path` on, nearest first.  Every file of a chain exists and is
passed once, so a chain needs no more `fuel` than there are files, and one step to find its end. -/
def configChain (fs : FileSystem) :
    (fuel : Nat) → (visited : List Path) → (path : Path) → Except LoadError (List ConfigFile)
  | 0, _, path => .error (.config path .circular)
  | fuel + 1, visited, path =>
    if visited.contains path then .error (.config path .circular)
    else do
      let c ← ConfigFile.load fs path
      match c.parent? with
      | some parent => return c :: (← configChain fs fuel (visited ++ [path]) parent)
      | none => return [c]

namespace CompilerOptions

/-- **Merging.** Every option has the value of the first configuration that sets it. -/
def ofChain (chain : List ConfigFile) : CompilerOptions :=
  { strict := (chain.findSome? ConfigFile.strict).getD false
    strictNullChecks := chain.findSome? ConfigFile.strictNullChecks
    baseUrl := chain.findSome? ConfigFile.basePath?
    allowJs := (chain.findSome? ConfigFile.allowJs).getD false }

/-- **Loading.** The options of the configuration at a path and of all it extends. -/
def load (fs : FileSystem) (path : Path) : Except LoadError CompilerOptions := do
  return ofChain (← configChain fs (fs.files.length + 1) [] (Path.absolute fs.cwd path))

end CompilerOptions

end PropDocs
