import PropDocs.OrderedMap
import PropDocs.Path
import PropDocs.TypeExpr.Basic

/-!
# Source modules

What documentation needs to know of one source file: its declarations by name, its imports, its
table of exports, and every module specifier it mentions.  Declarations of the same name form a
group, in source order.

A module is filled by three operations, `declare`, `addExport` and `addSpecifier`.
-/

namespace PropDocs

/-- **Body of a declaration.** -/
inductive DeclBody where
  | interface (bases : List TypeExpr) (members : List Member)
  | typeAlias (type : TypeExpr)
  | classDecl (base : Option TypeExpr) (members : List Member)
  | enum
  | function
  | variable (type : Option TypeExpr)
  | namespaceDecl

/-- **Declaration** with a name at the top level of a file. -/
structure Decl where
  name : String
  body : DeclBody
  doc : DocComment

/-- **Kind of a declaration**: the three kinds that can be contracts, and all others. -/
inductive DeclKind where
  | interface | typeAlias | classDecl | other
  deriving DecidableEq, Repr, Inhabited

/-- The kind is one of those that describe a component. -/
def DeclKind.isContract : DeclKind → Bool
  | .other => false
  | _ => true

namespace Decl

/-- The kind of a declaration. -/
def kind (d : Decl) : DeclKind :=
  match d.body with
  | .interface _ _ => .interface
  | .typeAlias _ => .typeAlias
  | .classDecl _ _ => .classDecl
  | _ => .other

/-- The declaration introduces a value, and not only a type. -/
def hasValue (d : Decl) : Bool :=
  match d.body with
  | .interface _ _ | .typeAlias _ => false
  | _ => true

/-- The members a declaration writes itself. -/
def ownMembers (d : Decl) : List Member :=
  match d.body with
  | .interface _ members | .classDecl _ members => members
  | _ => []

/-- The types a declaration extends. -/
def bases (d : Decl) : List TypeExpr :=
  match d.body with
  | .interface bases _ => bases
  | .classDecl base _ => base.toList
  | _ => []

/-- The type an alias stands for. -/
def aliased? (d : Decl) : Option TypeExpr :=
  match d.body with
  | .typeAlias type => some type
  | _ => none

end Decl

/-- **Export entry**: a name of this file, a name of another module, or all of another module. -/
inductive ExportEntry where
  | own (exported localName : String)
  | reexport (exported specifier imported : String)
  | wholeModule (exported specifier : String)
  deriving DecidableEq, Repr, Inhabited

/-- The name under which an entry exports. -/
def ExportEntry.exported : ExportEntry → String
  | .own exported _ | .reexport exported _ _ | .wholeModule exported _ => exported

/-- **Import binding**: a name of another module, or all of it. -/
inductive ImportBinding where
  | named (specifier imported : String)
  | wholeModule (specifier : String)
  deriving DecidableEq, Repr, Inhabited

/-- **Source module.** -/
structure SourceModule where
  path : Path
  /-- The file has an import or an export. -/
  isModule : Bool := false
  /-- Groups of declarations by name. -/
  declarations : OrderedMap (List Decl) := .empty
  /-- Imported local names. -/
  imports : OrderedMap ImportBinding := .empty
  /-- Exports in source order. -/
  exports : List ExportEntry := []
  /-- Specifiers of the modules whose exports are all exported again. -/
  starExports : List String := []
  /-- Every specifier mentioned, in source order and without repeats. -/
  specifiers : List String := []

instance : Inhabited SourceModule := ⟨{ path := "" }⟩

namespace SourceModule

/-- Adds a declaration to the group of its name. -/
def declare (m : SourceModule) (d : Decl) : SourceModule :=
  { m with declarations := m.declarations.alter d.name fun group => group.getD [] ++ [d] }

/-- Adds an entry to the table of exports. -/
def addExport (m : SourceModule) (e : ExportEntry) : SourceModule :=
  { m with isModule := true, exports := m.exports ++ [e] }

/-- Adds a specifier, unless it was mentioned before. -/
def addSpecifier (m : SourceModule) (specifier : String) : SourceModule :=
  if m.specifiers.contains specifier then m
  else { m with specifiers := m.specifiers ++ [specifier] }

/-- The group of declarations of a name. -/
def group (m : SourceModule) (name : String) : List Decl :=
  (m.declarations.get? name).getD []

end SourceModule

end PropDocs
