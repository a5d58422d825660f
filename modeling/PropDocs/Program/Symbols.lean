import PropDocs.Engine.Basic
import PropDocs.Program.Members
import PropDocs.TypeExpr.Printer

/-!
# The engine of a program

A program answers the questions of extraction.  Its symbols are modules, exported names and members
of types; its types are type handles.
-/

namespace PropDocs

/-- **Symbol of a program.** -/
inductive ProgramSymbol where
  | module (file : Path)
  /-- A name exported by a module, and the declarations it leads to. -/
  | exported (file : Path) (name : String) (target : Option GroupRef)
  | member (member : ScopedMember)

/-- **Declaration of a symbol.** -/
inductive ProgramDecl where
  | item (file : Path) (decl : Decl)
  | member (member : ScopedMember)
  /-- What an exported name that leads nowhere has in place of a declaration. -/
  | unresolved

namespace ProgramDecl

/-- The kind of a declaration. -/
def kind : ProgramDecl → DeclKind
  | .item _ d => d.kind
  | .member _ | .unresolved => .other

end ProgramDecl

/-- The flags of a member. -/
def ScopedMember.flags (m : ScopedMember) : SymbolFlags :=
  { optional := m.member.optional
    property := m.member.kind == .property
    method := m.member.kind == .method
    accessor := m.member.kind == .getter || m.member.kind == .setter }

namespace Program

/-- The symbol of the module in a file; a file that neither imports nor exports is no module. -/
def module? (p : Program) (cwd : Path) (path : Path) : Option ProgramSymbol := do
  let f ← p.file? (Path.absolute cwd path)
  if f.module.isModule then some (.module f.path) else none

/-- The symbols a module exports. -/
def exports (p : Program) : ProgramSymbol → List ProgramSymbol
  | .module file =>
    (p.exportedNames file).map fun name =>
      .exported file name (p.exportTarget? (maxDepth + 1) file name)
  | _ => []

/-- The name of a symbol; that of a module is its quoted path without the extension. -/
def nameOf (p : Program) : ProgramSymbol → String
  | .module file =>
    match p.file? file with
    | some f => "\"" ++ Path.withExtension f.path "" ++ "\""
    | none => ""
  | .exported _ name _ => name
  | .member m => m.name

/-- The declarations of a symbol. -/
def declarations (p : Program) : ProgramSymbol → List ProgramDecl
  | .module _ => []
  | .exported _ _ (some r) => (p.group r).map (.item r.file)
  | .exported _ _ none => [.unresolved]
  | .member m => [.member m]

/-- The declaration that carries the value of a symbol. -/
def valueDeclaration? (p : Program) : ProgramSymbol → Option ProgramDecl
  | .module _ => none
  | .exported _ _ (some r) => ((p.group r).find? Decl.hasValue).map (.item r.file)
  | .exported _ _ none => none
  | .member m => some (.member m)

/-- The documentation text of a symbol: the first description among the declarations of a name. -/
def documentation? (p : Program) : ProgramSymbol → Option String
  | .module _ => none
  | .exported _ _ (some r) =>
    some ((((p.group r).map fun d => d.doc.description).find? fun s => !s.isEmpty).getD "")
  | .exported _ _ none => some ""
  | .member m => some m.member.doc.description

/-- The tags of a symbol: those of all declarations of a name. -/
def tagsOf (p : Program) : ProgramSymbol → List RawTag
  | .module _ => []
  | .exported _ _ (some r) => (p.group r).flatMap fun d => d.doc.tags
  | .exported _ _ none => []
  | .member m => m.member.doc.tags

/-- The type a symbol declares. -/
def declaredType (p : Program) : ProgramSymbol → TypeHandle
  | .module file => { file, type := .any }
  | .exported _ _ (some r) => { file := r.file, type := .named r.name }
  | .exported file _ none => { file, type := .any }
  | .member m => p.typeOfMember m

/-- The flags of a symbol; only members have any. -/
def flagsOf : ProgramSymbol → SymbolFlags
  | .member m => m.flags
  | _ => {}

/-- The type of a symbol as seen from one of its declarations. -/
def typeAt (p : Program) (s : ProgramSymbol) : ProgramDecl → TypeHandle
  | .member m => p.typeOfMember m
  | _ => p.declaredType s

/-- **The engine of a program.** Paths are seen from the directory `cwd`. -/
def engine (p : Program) (cwd : Path) : Engine ProgramSymbol TypeHandle ProgramDecl where
  module? := p.module? cwd
  exports := p.exports
  name := p.nameOf
  declarations := p.declarations
  kind := ProgramDecl.kind
  valueDeclaration? := p.valueDeclaration?
  documentation? := p.documentation?
  tags := p.tagsOf
  declaredType := p.declaredType
  flags := flagsOf
  typeAt := p.typeAt
  properties t := (p.properties t).map .member
  unionParts? := p.unionParts?
  intersectionParts? := p.intersectionParts?
  stringLiteral? := p.stringLiteral?
  print t := t.type.print

end Program

end PropDocs
