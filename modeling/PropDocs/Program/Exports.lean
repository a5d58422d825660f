import PropDocs.Program.Basic

/-!
# Names in a program

What a name means: an exported name of a module, a name in a file's scope, and the name of a type.
Following a name through imports and re-exports is bounded by a number of hops; a step through an
export entry costs one hop, and one through a local import two.

* `exportTarget?`: the declarations an exported name leads to;
* `scopeTarget?`: the declarations of a name in a file's scope;
* `typeTarget?`: the same for the name of a type, which may be `ns.Name` for a module imported
  as a whole;
* `exportedNames`: the names a module exports, its own first.
-/

namespace PropDocs.Program

/-- The bound on hops, alias chains and inheritance. -/
def maxDepth : Nat := 32

/-! ### Resolution -/

/-- A name in a file's scope: declared there, or imported by name and then found by `follow`. -/
def targetIn? (p : Program) (follow : Path → String → Option GroupRef) (path : Path)
    (name : String) : Option GroupRef := do
  let f ← p.file? path
  if f.module.declarations.contains name then return { file := path, name }
  match ← f.module.imports.get? name with
  | .named specifier imported => follow (← p.linked? path specifier) imported
  | .wholeModule _ => none

/-- **Exported name.** The group of declarations a name exported by a module leads to. -/
def exportTarget? (p : Program) : (hops : Nat) → (path : Path) → (name : String) → Option GroupRef
  | 0, _, _ => none
  | hops + 1, path, name => do
    let f ← p.file? path
    match f.module.exports.find? fun e => e.exported == name with
    | some (.own _ localName) =>
      match hops with
      | 0 => p.targetIn? (fun _ _ => none) path localName
      | rest + 1 => p.targetIn? (p.exportTarget? rest) path localName
    | some (.reexport _ specifier imported) =>
      p.exportTarget? hops (← p.linked? path specifier) imported
    | some (.wholeModule _ _) => none
    | none =>
      if name = "default" then none
      else
        f.module.starExports.findSome? fun specifier =>
          match p.linked? path specifier with
          | some target => p.exportTarget? hops target name
          | none => none

/-- **Local name.** The group of declarations of a name in a file's scope. -/
def scopeTarget? (p : Program) (path : Path) (name : String) : Option GroupRef :=
  p.targetIn? (p.exportTarget? maxDepth) path name

/-- A name divided at its first dot. -/
def splitDot? (name : String) : Option (String × String) :=
  match name.toList.dropWhile (· != '.') with
  | _ :: rest => some (String.ofList (name.toList.takeWhile (· != '.')), String.ofList rest)
  | [] => none

/-- **Type name.** A plain name is looked up in the file's scope, and `ns.Name` among the exports of
the module that `ns` stands for. -/
def typeTarget? (p : Program) (path : Path) (name : String) : Option GroupRef :=
  match splitDot? name with
  | none => p.scopeTarget? path name
  | some (head, rest) =>
    if rest.toList.contains '.' then none
    else do
      let f ← p.file? path
      match ← f.module.imports.get? head with
      | .wholeModule specifier => p.exportTarget? (maxDepth + 1) (← p.linked? path specifier) rest
      | .named _ _ => none

/-! ### Enumeration -/

/-- The files whose exports a file exports again as a whole. -/
def starTargets (p : Program) (path : Path) : List Path :=
  match p.file? path with
  | some f => f.module.starExports.filterMap (p.linked? path)
  | none => []

/-- **Star closure.** Adds a file to the files visited, and then the files it exports again, depth
first.  A file is visited once, and the walk goes no further from a file beyond the bound. -/
def starClosure (p : Program) : (fuel : Nat) → (visited : List Path) → (path : Path) → List Path
  | 0, visited, _ => visited
  | fuel + 1, visited, path =>
    if visited.contains path then visited
    else if visited.length < maxDepth then
      (p.starTargets path).foldl (p.starClosure fuel) (visited ++ [path])
    else visited ++ [path]

/-- The names in a file's own table of exports. -/
def ownExportNames (p : Program) (path : Path) : List String :=
  match p.file? path with
  | some f => f.module.exports.map ExportEntry.exported
  | none => []

/-- **Exported names** of a module: its own, then those of the modules it exports again, whose
default exports are left out.  Each name counts at its first occurrence. -/
def exportedNames (p : Program) (path : Path) : List String :=
  match (p.starClosure (maxDepth + 1) [] path).take maxDepth with
  | [] => []
  | own :: others =>
    (p.ownExportNames own ++
      others.flatMap fun file => (p.ownExportNames file).filter (· != "default")).eraseDups

end PropDocs.Program
