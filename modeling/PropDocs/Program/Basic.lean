import PropDocs.Compiler.Options
import PropDocs.Module.Basic

/-!
# Programs

A program is a set of source files that have been loaded together.  A file is known by its path,
and every specifier it mentions is linked to the path of the file it stands for, when there is one.
-/

namespace PropDocs

/-- **Source file** of a program: a module, and what its specifiers stand for. -/
structure SourceFile where
  module : SourceModule
  links : List (String × Path)

/-- The path of a file. -/
def SourceFile.path (f : SourceFile) : Path :=
  f.module.path

/-- **Program.** Files in the order in which they were loaded. -/
structure Program where
  options : CompilerOptions := {}
  files : List SourceFile := []

/-- **Declaration group**, by the file it is in and its name. -/
structure GroupRef where
  file : Path
  name : String
  deriving DecidableEq, Repr, Inhabited

namespace Program

/-- The paths of a program's files, in loading order. -/
def paths (p : Program) : List Path :=
  p.files.map SourceFile.path

/-- The file at a path. -/
def file? (p : Program) (path : Path) : Option SourceFile :=
  p.files.find? fun f => f.path == path

theorem mem_of_file? {p : Program} {path : Path} {f : SourceFile} (h : p.file? path = some f) :
    f ∈ p.files ∧ f.path = path :=
  ⟨List.mem_of_find?_eq_some h, by simpa using List.find?_some h⟩

theorem mem_paths_of_file? {p : Program} {path : Path} {f : SourceFile}
    (h : p.file? path = some f) : path ∈ p.paths := by
  obtain ⟨hf, rfl⟩ := mem_of_file? h
  exact List.mem_map_of_mem hf

/-- The file a specifier stands for in the file `path`. -/
def linked? (p : Program) (path : Path) (specifier : String) : Option Path := do
  let f ← p.file? path
  f.links.lookup specifier

/-- The declarations of a group, in source order. -/
def group (p : Program) (r : GroupRef) : List Decl :=
  match p.file? r.file with
  | some f => f.module.group r.name
  | none => []

/-! ### Paths that remain -/

/-- **Remaining paths**: those of a list that are not known.  A walk that gets to know a new one each
time comes to an end. -/
def remaining (all known : List Path) : List Path :=
  all.filter fun path => !known.contains path

theorem remaining_append (all known new : List Path) :
    remaining all (known ++ new) = remaining (remaining all known) new := by
  simp only [remaining, List.filter_filter]
  apply List.filter_congr
  intro path _
  simp [Bool.and_comm]

theorem length_remaining_le (all known : List Path) :
    (remaining all known).length ≤ all.length :=
  List.length_filter_le _ _

theorem length_remaining_lt {all known new : List Path} {path : Path} (hall : path ∈ all)
    (hnew : path ∈ new) (hknown : path ∉ known) :
    (remaining all (known ++ new)).length < (remaining all known).length := by
  rw [remaining_append]
  apply List.length_filter_lt_length_iff_exists.2
  refine ⟨path, ?_, ?_⟩
  · simpa [remaining] using ⟨hall, hknown⟩
  · simpa using hnew

end Program

end PropDocs
