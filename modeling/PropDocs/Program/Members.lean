import PropDocs.Program.Types
import PropDocs.TypeExpr.Nullish

/-!
# Members of types

The members of a written type, own members in front of inherited ones.  The walk goes through
names, alias bodies, bases, unions and intersections, and is bounded in depth.

* `groupMembers`: the members of the declarations of one name, first name wins;
* `builtinMembers`: the members of `Partial`, `Required`, `Readonly`, `Pick` and `Omit`;
* `membersWithin`: the members of any written type.
-/

namespace PropDocs

/-- **Scoped member**: a member, and the file in which the names of its type are looked up. -/
structure ScopedMember where
  file : Path
  member : Member

namespace ScopedMember

/-- The name of the member. -/
def name (m : ScopedMember) : String :=
  m.member.name

/-- Marks the member as optional or not. -/
def setOptional (optional : Bool) (m : ScopedMember) : ScopedMember :=
  { m with member := { m.member with optional } }

/-- Marks the member as readonly. -/
def setReadonly (m : ScopedMember) : ScopedMember :=
  { m with member := { m.member with readonly := true } }

end ScopedMember

/-- **First of each name.** Keeps the members whose names are not in `seen` and were not seen
before. -/
def firstOfEachName (seen : List String) : List ScopedMember → List ScopedMember
  | [] => []
  | m :: ms =>
    if seen.contains m.name then firstOfEachName seen ms
    else m :: firstOfEachName (m.name :: seen) ms

namespace Program

/-- What finds the members of a type in a file. -/
abbrev MemberWalk := Path → TypeExpr → List ScopedMember

/-- What one declaration of a group contributes before bases: its own members, or those of the type
it is an alias of. -/
def ownMembers (walk : MemberWalk) (file : Path) (d : Decl) : List ScopedMember :=
  match d.body with
  | .interface _ members | .classDecl _ members => members.map fun member => { file, member }
  | .typeAlias type => walk file type
  | _ => []

/-- **Members of a group**: those of all its declarations, then those of all their bases. -/
def groupMembers (p : Program) (walk : MemberWalk) (r : GroupRef) : List ScopedMember :=
  firstOfEachName []
    ((p.group r).flatMap (ownMembers walk r.file) ++
      (p.group r).flatMap fun d => d.bases.flatMap (walk r.file))

/-- The members of a first type argument. -/
def argMembers (walk : MemberWalk) (file : Path) : List TypeExpr → List ScopedMember
  | [] => []
  | t :: _ => walk file t

/-- The members of a first type argument whose names are (`pick`) or are not among the literal keys
of the second one; nothing when the second one has no literal keys. -/
def selectMembers (p : Program) (walk : MemberWalk) (file : Path) (pick : Bool) :
    List TypeExpr → List ScopedMember
  | t :: keys :: _ =>
    match p.keyNames? { file, type := keys } with
    | some names => (walk file t).filter fun m => names.contains m.name == pick
    | none => []
  | _ => []

/-- **Members of a utility type** by its name.  A name that is none of the five has no members. -/
def builtinMembers (p : Program) (walk : MemberWalk) (file : Path) (name : String)
    (args : List TypeExpr) : List ScopedMember :=
  match name with
  | "Partial" => (argMembers walk file args).map (.setOptional true)
  | "Required" => (argMembers walk file args).map (.setOptional false)
  | "Readonly" => (argMembers walk file args).map .setReadonly
  | "Pick" => p.selectMembers walk file true args
  | "Omit" => p.selectMembers walk file false args
  | _ => []

/-- **Members common to all sets**: those of the first set whose names occur in every other one. -/
def commonMembers : List (List ScopedMember) → List ScopedMember
  | [] => []
  | first :: others => first.filter fun m => others.all fun set => set.any fun o => o.name == m.name

/-- **Members of a written type**, down to `depth` levels. -/
def membersWithin (p : Program) : (depth : Nat) → MemberWalk
  | 0, _, _ => []
  | depth + 1, file, .reference name args =>
    match p.typeTarget? file name with
    | some r => p.groupMembers (p.membersWithin depth) r
    | none => p.builtinMembers (p.membersWithin depth) file name args
  | _ + 1, file, .object members => members.map fun member => { file, member }
  | depth + 1, file, .intersection types =>
    firstOfEachName [] (types.flatMap (p.membersWithin depth file))
  | depth + 1, file, .union types =>
    commonMembers ((types.filter fun t => p.options.nullChecks || !t.isNullish).map
      (p.membersWithin depth file))
  | _ + 1, _, _ => []

/-- **Properties of a type.** -/
def properties (p : Program) (t : TypeHandle) : List ScopedMember :=
  p.membersWithin (maxDepth + 1) t.file t.type

/-- **Type of a member** as a reader of it sees it. -/
def typeOfMember (p : Program) (m : ScopedMember) : TypeHandle :=
  { file := m.file, type := m.member.readType p.options.nullChecks }

end Program

end PropDocs
