import PropDocs.Module.Basic
import PropDocs.Number.Shortest
import PropDocs.Source.Tree

/-!
# Modules from syntax trees

The module that a list of items describes.  Types lose what the printed form does not show:
parentheses, index and call signatures, members with computed keys, and type arguments behind
imports and type queries.

* `TypeExpr.ofNode`: a written type from its annotation;
* `Initializer.ofExpr`: what an initial value says about the type of a member;
* `SourceModule.ofItems`: declarations, imports and exports of a file.
-/

namespace PropDocs

open Source

/-! ### Names and keys -/

/-- A name of several segments with dots between them. -/
def dotted : List String → String
  | [] => ""
  | [s] => s
  | s :: ss => s ++ "." ++ dotted ss

/-- The dotted name an expression spells. -/
def dottedName? : Expr → Option String
  | .name n => some n
  | .member object n => (dottedName? object).map fun o => o ++ "." ++ n
  | _ => none

/-- The name of a member of an object type or an interface. -/
def typeKeyName? : PropKey → Option String
  | .name n => some n
  | .string s => some s
  | .number x => some x.render
  | _ => none

/-- The name of a member of a class. -/
def classKeyName? : PropKey → Option String
  | .bigint digits => some digits
  | key => typeKeyName? key

/-- The documentation in a comment, when there is one. -/
def docOf : Option String → DocComment
  | none => {}
  | some text => DocComment.parse text

/-- The name of a parameter; a pattern is named by its position. -/
def paramName (index : Nat) : BindingShape → String
  | .name n => n
  | _ => "__" ++ toString index

/-! ### Types -/

mutual

/-- **Written type** of an annotation. -/
def TypeExpr.ofNode : TypeNode → TypeExpr
  | .keyword k => .keyword k
  | .thisType => .thisType
  | .string s => .string s
  | .number n => .number n
  | .bigint d => .bigint d
  | .boolean b => .boolean b
  | .template parts => .template (TemplatePart.ofNodes parts)
  | .reference name args => .reference (dotted name) (TypeExpr.ofNodes args)
  | .query name _ => .query (dotted name)
  | .queryImport argument _ _ => .query ("import(\"" ++ argument ++ "\")")
  | .imported argument qualifier _ =>
    .imported argument (if qualifier.isEmpty then none else some (dotted qualifier)) []
  | .array t => .array (TypeExpr.ofNode t)
  | .tuple elements => .tuple (TupleElement.ofNodes elements)
  | .optional t => .optional (TypeExpr.ofNode t)
  | .rest t => .rest (TypeExpr.ofNode t)
  | .union ts => .union (TypeExpr.ofNodes ts)
  | .intersection ts => .intersection (TypeExpr.ofNodes ts)
  | .function signature isConstructor => .function (Signature.ofNode signature) isConstructor
  | .literal members => .object (Member.ofNodes members)
  | .operator op t => .operator op (TypeExpr.ofNode t)
  | .indexed object index => .indexed (TypeExpr.ofNode object) (TypeExpr.ofNode index)
  | .conditional check bound yes no =>
    .conditional (TypeExpr.ofNode check) (TypeExpr.ofNode bound) (TypeExpr.ofNode yes)
      (TypeExpr.ofNode no)
  | .mapped m => .mapped (MappedType.ofNode m)
  | .infer name _ => .infer name
  | .parenthesized t => TypeExpr.ofNode t
  | .predicate asserts param type => .predicate asserts param (TypeExpr.ofOption type)

/-- A list of types. -/
def TypeExpr.ofNodes : List TypeNode → List TypeExpr
  | [] => []
  | t :: ts => TypeExpr.ofNode t :: TypeExpr.ofNodes ts

/-- A type that may be missing. -/
def TypeExpr.ofOption : Option TypeNode → Option TypeExpr
  | none => none
  | some t => some (TypeExpr.ofNode t)

/-- The parts of a template. -/
def TemplatePart.ofNodes : List TemplateNode → List TemplatePart
  | [] => []
  | .text s :: ps => .text s :: TemplatePart.ofNodes ps
  | .type t :: ps => .type (TypeExpr.ofNode t) :: TemplatePart.ofNodes ps

/-- The elements of a tuple.  The label of a rest element is dropped. -/
def TupleElement.ofNodes : List TupleNode → List TupleElement
  | [] => []
  | ⟨label, t⟩ :: es =>
    { label := label.bind fun l => if l.rest then none else some l.name
      type := TypeExpr.ofNode t } :: TupleElement.ofNodes es

/-- A signature; one without a return type returns anything. -/
def Signature.ofNode : SignatureNode → Signature
  | ⟨typeParams, params, returns⟩ =>
    { typeParams := TypeParam.ofNodes typeParams
      params := Param.ofNodes 0 params
      returns := (TypeExpr.ofOption returns).getD .any }

/-- Type parameters. -/
def TypeParam.ofNodes : List TypeParamNode → List TypeParam
  | [] => []
  | ⟨name, constraint, default⟩ :: ps =>
    { name, constraint := TypeExpr.ofOption constraint, default := TypeExpr.ofOption default } ::
      TypeParam.ofNodes ps

/-- Parameters, the first one at the given position. -/
def Param.ofNodes (index : Nat) : List ParamNode → List Param
  | [] => []
  | p :: ps => Param.ofNode index p :: Param.ofNodes (index + 1) ps

/-- A parameter; an initial value makes it optional. -/
def Param.ofNode (index : Nat) : ParamNode → Param
  | ⟨shape, rest, optional, type, initial⟩ =>
    { name := paramName index shape
      optional := optional || initial.isSome
      rest
      type := TypeExpr.ofOption type }

/-- A mapped type. -/
def MappedType.ofNode : MappedNode → MappedType
  | ⟨readonly, param, constraint, nameType, optional, type⟩ =>
    { readonly, param
      constraint := TypeExpr.ofOption constraint
      nameType := TypeExpr.ofOption nameType
      optional
      type := TypeExpr.ofOption type }

/-- The members of an object type that have names. -/
def Member.ofNodes : List TypeMember → List Member
  | [] => []
  | m :: ms =>
    match Member.ofNode? m with
    | some m => m :: Member.ofNodes ms
    | none => Member.ofNodes ms

/-- A member of an object type, when it has a name. -/
def Member.ofNode? : TypeMember → Option Member
  | .property key optional readonly type doc =>
    let type := TypeExpr.ofOption type
    (typeKeyName? key).map fun name =>
      { name, kind := .property, optional, readonly, type, initializer := none, doc := docOf doc }
  | .method key optional signature doc =>
    let signature := Signature.ofNode signature
    (typeKeyName? key).map fun name =>
      { name, kind := .method, optional, readonly := false
        type := some (.function signature false), initializer := none, doc := docOf doc }
  | .getter key type doc =>
    let type := TypeExpr.ofOption type
    (typeKeyName? key).map fun name =>
      { name, kind := .getter, optional := false, readonly := false, type
        initializer := none, doc := docOf doc }
  | .setter key param doc =>
    let param := Param.ofNode 0 param
    (typeKeyName? key).map fun name =>
      { name, kind := .setter, optional := false, readonly := false, type := param.type
        initializer := none, doc := docOf doc }
  | .index _ _ => none
  | .call _ => none

end

/-! ### Initial values -/

/-- **Initializer** of a member with the given initial value. -/
def Initializer.ofExpr : Expr → Initializer
  | .boolean b => .boolean b
  | .number n => .number n
  | .string s => .string s
  | .bigint d => .bigint d
  | .null => .null
  | .template => .template
  | .name n => if n = "undefined" then .undefined else .other
  | .unary op operand =>
    if op = "void" then .undefined
    else if op = "!" then .typed (.keyword .boolean)
    else
      match operand with
      | .number n => if op = "-" then .number n.negate else .other
      | _ => .other
  | .array => .array
  | .object isEmpty => if isEmpty then .emptyObject else .other
  | .new callee =>
    match dottedName? callee with
    | some n => .new n
    | none => .other
  | .parenthesized e => Initializer.ofExpr e
  | .typed _ t => .typed (TypeExpr.ofNode t)
  | .satisfies e _ => Initializer.ofExpr e
  | .member _ _ | .other => .other

/-! ### Declarations -/

/-- The type a base stands for; a base that is no name could be anything. -/
def TypeExpr.ofHeritage (h : Heritage) : TypeExpr :=
  match dottedName? h.base with
  | some n => .reference n (TypeExpr.ofNodes h.args)
  | none => .any

/-- The property a constructor parameter declares. -/
def Member.ofConstructorParam? (p : ConstructorParam) : Option Member :=
  match p.isProperty, p.param.shape with
  | true, .name name =>
    some
      { name, kind := .property, optional := p.param.optional, readonly := p.readonly
        type := TypeExpr.ofOption p.param.type
        initializer := p.param.initial.map Initializer.ofExpr
        doc := docOf p.doc }
  | _, _ => none

/-- The type of a method, getter or setter. -/
def methodType (kind : MethodKind) (signature : SignatureNode) : Option TypeExpr :=
  match kind with
  | .method => some (.function (Signature.ofNode signature) false)
  | .getter => TypeExpr.ofOption signature.returns
  | .setter => signature.params.head?.bind fun p => TypeExpr.ofOption p.type

/-- The kind of member that a kind of method is. -/
def methodMemberKind : MethodKind → MemberKind
  | .method => .method
  | .getter => .getter
  | .setter => .setter

/-- The members that a member of a class declares for its instances. -/
def Member.ofClassMember : ClassMember → List Member
  | .property false key optional readonly type value doc =>
    ((classKeyName? key).map fun name =>
      { name, kind := .property, optional, readonly
        type := TypeExpr.ofOption type
        initializer := value.map Initializer.ofExpr
        doc := docOf doc : Member }).toList
  | .method false key kind optional signature doc =>
    ((classKeyName? key).map fun name =>
      { name, kind := methodMemberKind kind, optional, readonly := false
        type := methodType kind signature
        initializer := none
        doc := docOf doc : Member }).toList
  | .constructor params => params.filterMap Member.ofConstructorParam?
  | _ => []

/-- The body of a class. -/
def DeclBody.ofClass (c : ClassNode) : DeclBody :=
  .classDecl (c.base.map TypeExpr.ofHeritage) (c.members.flatMap Member.ofClassMember)

/-- The declaration of one variable of a statement; a pattern declares none. -/
def Decl.ofBinding? (doc : DocComment) (b : Binding) : Option Decl :=
  match b.shape with
  | .name name => some { name, body := .variable (TypeExpr.ofOption b.type), doc }
  | _ => none

/-- **Declarations of a node.** `outer` is the documentation in front of `export`, for what has none
of its own. -/
def Decl.ofNode (outer : Option String) : DeclNode → List Decl
  | .interface name doc bases members =>
    [{ name, body := .interface (bases.map TypeExpr.ofHeritage) (Member.ofNodes members)
       doc := docOf (firstDoc [doc, outer]) }]
  | .typeAlias name doc type =>
    [{ name, body := .typeAlias (TypeExpr.ofNode type), doc := docOf (firstDoc [doc, outer]) }]
  | .classDecl name doc body =>
    [{ name := name.getD "default", body := DeclBody.ofClass body
       doc := docOf (firstDoc [doc, outer]) }]
  | .enum name doc => [{ name, body := .enum, doc := docOf (firstDoc [doc, outer]) }]
  | .function name doc =>
    [{ name := name.getD "default", body := .function, doc := docOf (firstDoc [doc, outer]) }]
  | .variable doc bindings =>
    bindings.filterMap (Decl.ofBinding? (docOf (firstDoc [doc, outer])))
  | .namespaceDecl name doc =>
    [{ name, body := .namespaceDecl, doc := docOf (firstDoc [doc, outer]) }]
  | .nameless => []

/-! ### Module items -/

namespace SourceModule

/-- Adds an imported binding. -/
def addImport (specifier : String) (m : SourceModule) : ImportNode → SourceModule
  | .named localName imported =>
    { m with imports := m.imports.insert localName (.named specifier imported) }
  | .all localName => { m with imports := m.imports.insert localName (.wholeModule specifier) }

/-- Adds an exported binding, of this file or of the module with the given specifier. -/
def addExportNode (specifier : Option String) (m : SourceModule) : ExportNode → SourceModule
  | .named exported origin =>
    match specifier with
    | none => m.addExport (.own exported origin)
    | some s => m.addExport (.reexport exported s origin)
  | .all exported =>
    match specifier with
    | none => m
    | some s => m.addExport (.wholeModule exported s)

/-- Marks the file as a module. -/
def markModule (m : SourceModule) : SourceModule := { m with isModule := true }

/-- Exports a declaration of this file under its own name. -/
def exportDecl (m : SourceModule) (d : Decl) : SourceModule :=
  (m.addExport (.own d.name d.name)).declare d

/-- Exports a declaration of this file as the default. -/
def exportDefault (m : SourceModule) (d : Decl) : SourceModule :=
  (m.addExport (.own "default" d.name)).declare d

/-- **Adds an item.** -/
def addItem (m : SourceModule) : Item → SourceModule
  | .importFrom specifier bindings =>
    bindings.foldl (addImport specifier) (m.markModule.addSpecifier specifier)
  | .exportDecl doc decl => (Decl.ofNode doc decl).foldl exportDecl m.markModule
  | .exportDefaultDecl doc decl => (Decl.ofNode doc decl).foldl exportDefault m.markModule
  | .exportDefaultExpr doc value =>
    match value with
    | .name n => m.markModule.addExport (.own "default" n)
    | _ =>
      let d : Decl := { name := "default", body := .variable none, doc := docOf doc }
      (m.markModule.declare d).addExport (.own "default" "default")
  | .exportNames specifier names =>
    names.foldl (addExportNode specifier)
      (match specifier with
        | some s => m.markModule.addSpecifier s
        | none => m.markModule)
  | .exportAll specifier =>
    let m := m.markModule.addSpecifier specifier
    { m with starExports := m.starExports ++ [specifier] }
  | .marker => m.markModule
  | .decl decl => (Decl.ofNode none decl).foldl declare m
  | .statement => m

/-- **Module of a list of items.** -/
def ofItems (path : Path) (items : List Item) : SourceModule :=
  items.foldl addItem { path }

end SourceModule

end PropDocs
