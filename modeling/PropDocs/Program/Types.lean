import PropDocs.Program.Exports

/-!
# Types in a program

A type handle is a written type together with the file in which its names are looked up.

* `unalias`: replaces a name of a type alias by the type it stands for, again and again;
* `unionLeaves`: the members of a union, unions among them taken apart;
* `unionParts?`, `intersectionParts?`, `stringLiteral?`: what a type is behind its aliases.
-/

namespace PropDocs

/-- **Type handle.** -/
structure TypeHandle where
  file : Path
  type : TypeExpr

namespace Program

/-- One alias step: the type that the name of an alias stands for. -/
def aliased? (p : Program) (t : TypeHandle) : Option TypeHandle :=
  match t.type with
  | .reference name _ => do
    let r ← p.typeTarget? t.file name
    let body ← (p.group r).findSome? Decl.aliased?
    return { file := r.file, type := body }
  | _ => none

/-- At most `steps` alias steps. -/
def unaliasFor (p : Program) : (steps : Nat) → TypeHandle → TypeHandle
  | 0, t => t
  | steps + 1, t =>
    match p.aliased? t with
    | some next => p.unaliasFor steps next
    | none => t

/-- **Looking through aliases.** -/
def unalias (p : Program) (t : TypeHandle) : TypeHandle :=
  p.unaliasFor maxDepth t

/-- **Flattening.** The members of a union in order, unions among them taken apart down to `depth`
levels; any other type is its own only member. -/
def unionLeaves (p : Program) : (depth : Nat) → TypeHandle → List TypeHandle
  | 0, t => [t]
  | depth + 1, t =>
    match p.unalias t with
    | { file, type := .union types } =>
      types.flatMap fun m => p.unionLeaves depth { file, type := m }
    | _ => [t]

/-- The members of a type that is a union behind its aliases. -/
def unionParts? (p : Program) (t : TypeHandle) : Option (List TypeHandle) :=
  match p.unalias t with
  | { file, type := .union types } => some (p.unionLeaves maxDepth { file, type := .union types })
  | _ => none

/-- The members of a type that is an intersection behind its aliases. -/
def intersectionParts? (p : Program) (t : TypeHandle) : Option (List TypeHandle) :=
  match p.unalias t with
  | { file, type := .intersection types } => some (types.map fun type => { file, type })
  | _ => none

/-- The string of a type that is a string literal behind its aliases. -/
def stringLiteral? (p : Program) (t : TypeHandle) : Option String :=
  match (p.unalias t).type with
  | .string value => some value
  | _ => none

/-- **Literal keys.** The strings of a string literal type or of a union of such types. -/
def keyNames? (p : Program) (t : TypeHandle) : Option (List String) :=
  match p.stringLiteral? t with
  | some key => some [key]
  | none => do (← p.unionParts? t).mapM p.stringLiteral?

end Program

end PropDocs
