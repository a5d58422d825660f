import PropDocs.FileSystem
import PropDocs.Module.Loading
import PropDocs.Program.Basic
import PropDocs.Program.Specifier

/-!
# Building a program

A program holds its roots and every file that can be reached from them through specifiers.  Files
come from a workspace: a file system, with texts in memory that take the place of files.

* `Workspace.load`: the module at a path;
* `loadRoots`: the roots in order, each once.  The first root that cannot be loaded is an error;
* `expand`: generation after generation, the files that the last generation's specifiers stand
  for and that are not there yet.  A file that cannot be loaded is an empty module;
* `Program.build`: the files found, each with its links.
-/

namespace PropDocs

/-- **Workspace.** A file system, and texts in memory by normalised absolute path. -/
structure Workspace where
  disk : FileSystem := {}
  overlays : OrderedMap String := .empty

namespace Workspace

/-- Serves a path from memory. -/
def overlay (w : Workspace) (path : Path) (text : String) : Workspace :=
  { w with overlays := w.overlays.insert (Path.absolute w.disk.cwd path) text }

/-- A path has a text in memory or leads to a file. -/
def present (w : Workspace) (path : Path) : Bool :=
  w.overlays.contains path || w.disk.isFile path

/-- The text at a path. -/
def text (w : Workspace) (path : Path) : Except LoadError String :=
  match w.overlays.get? path with
  | some text => .ok text
  | none =>
    if w.disk.isFile path then
      match w.disk.read path with
      | .ok text => .ok text
      | .error cause => .error (.io cause)
    else .error (.fileNotFound path)

/-- **Loading.** The module at a path. -/
def load (w : Workspace) (path : Path) : Except LoadError SourceModule := do
  SourceModule.ofText path (← w.text path)

/-- A module that others depend on: empty when it cannot be loaded. -/
def loadOrEmpty (w : Workspace) (path : Path) : SourceModule :=
  match w.load path with
  | .ok m => m
  | .error _ => { path }

/-- The number of places a module can be loaded from. -/
def size (w : Workspace) : Nat :=
  w.overlays.entries.length + w.disk.files.length

end Workspace

namespace Program

/-! ### Roots -/

/-- **Distinct paths.** The paths of a list that are not known yet, each once. -/
def fresh (known : List Path) : List Path → List Path
  | [] => []
  | p :: ps => if known.contains p then fresh known ps else p :: fresh (known ++ [p]) ps

/-- **Roots.** The modules at the given paths, in order and each once. -/
def loadRoots (w : Workspace) (roots : List Path) : Except LoadError (List SourceModule) :=
  (fresh [] (roots.map (Path.absolute w.disk.cwd))).mapM w.load

/-! ### Dependencies -/

/-- What the specifiers of a module stand for. -/
def linksOf (w : Workspace) (options : CompilerOptions) (m : SourceModule) : List (String × Path) :=
  m.specifiers.filterMap fun s =>
    (Specifier.resolve? options w.present m.path s).map fun target => (s, target)

/-- The modules the last generation depends on and that are not known yet. -/
def nextGeneration (w : Workspace) (options : CompilerOptions) (known last : List SourceModule) :
    List SourceModule :=
  (fresh (known.map SourceModule.path)
    (last.flatMap fun m => (linksOf w options m).map Prod.snd)).map w.loadOrEmpty

/-- **Generations.** `done` are the modules whose dependencies are all known, `last` the ones found
last.  Every generation but the last one holds a module that was loaded from a place of its own, so
the number of places bounds the number of generations. -/
def expand (w : Workspace) (options : CompilerOptions) :
    (fuel : Nat) → (done last : List SourceModule) → List SourceModule
  | 0, done, last => done ++ last
  | _ + 1, done, [] => done
  | fuel + 1, done, m :: ms =>
    expand w options fuel (done ++ m :: ms) (nextGeneration w options (done ++ m :: ms) (m :: ms))

/-- **Building.** The program of the given roots. -/
def build (w : Workspace) (options : CompilerOptions) (roots : List Path) :
    Except LoadError Program := do
  let start ← loadRoots w roots
  let modules := expand w options (w.size + 2) [] start
  return { options, files := modules.map fun m => { module := m, links := linksOf w options m } }

end Program

end PropDocs
