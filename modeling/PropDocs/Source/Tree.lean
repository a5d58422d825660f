import PropDocs.TypeExpr.Basic

/-!
# Syntax trees of sources

What the grammar reads out of a source text.  Types are kept whole: everything that is written in
a type annotation is in its `TypeNode`.  Expressions are kept as far as they can say something
about the type of a member or name a base class; all other expressions are `Expr.other`.
Statements that declare nothing leave no trace.

Every node that can be documented carries the text of the documentation comment in front of it.
-/

namespace PropDocs.Source

/-- **Binding shape**: a name, or a pattern in brackets or braces. -/
inductive BindingShape where
  | name (name : String)
  | arrayPattern
  | objectPattern
  deriving DecidableEq, Repr, Inhabited

/-- **Property key** of a member. -/
inductive PropKey where
  | name (name : String)
  | string (value : String)
  | number (value : Double)
  | bigint (digits : String)
  /-- An expression in brackets. -/
  | computed
  /-- A name with a hash in front. -/
  | hashName
  deriving DecidableEq, Repr, Inhabited

/-- **Label** of a tuple element. -/
structure TupleLabel where
  name : String
  optional : Bool
  rest : Bool
  deriving DecidableEq, Repr, Inhabited

mutual

/-- **Type annotation.** -/
inductive TypeNode where
  | keyword (keyword : Keyword)
  | thisType
  | string (value : String)
  | number (value : Double)
  | bigint (digits : String)
  | boolean (value : Bool)
  | template (parts : List TemplateNode)
  /-- A name of one or more segments with type arguments. -/
  | reference (name : List String) (args : List TypeNode)
  /-- The type of a value, by its name. -/
  | query (name : List String) (args : List TypeNode)
  /-- The type of an imported value. -/
  | queryImport (argument : String) (qualifier : List String) (args : List TypeNode)
  | imported (argument : String) (qualifier : List String) (args : List TypeNode)
  | array (element : TypeNode)
  | tuple (elements : List TupleNode)
  | optional (inner : TypeNode)
  | rest (inner : TypeNode)
  | union (types : List TypeNode)
  | intersection (types : List TypeNode)
  | function (signature : SignatureNode) (isConstructor : Bool)
  | literal (members : List TypeMember)
  | operator (operator : TypeOperator) (inner : TypeNode)
  | indexed (object : TypeNode) (index : TypeNode)
  | conditional (check : TypeNode) (bound : TypeNode) (yes : TypeNode) (no : TypeNode)
  | mapped (mapped : MappedNode)
  | infer (name : String) (constraint : Option TypeNode)
  | parenthesized (inner : TypeNode)
  | predicate (asserts : Bool) (param : String) (type : Option TypeNode)

/-- **Part of a template type.** -/
inductive TemplateNode where
  | text (text : String)
  | type (type : TypeNode)

/-- **Tuple element.** -/
structure TupleNode where
  label : Option TupleLabel
  type : TypeNode

/-- **Type parameter.** -/
structure TypeParamNode where
  name : String
  constraint : Option TypeNode
  default : Option TypeNode

/-- **Parameter** of a function type, a method or a constructor. -/
structure ParamNode where
  shape : BindingShape
  rest : Bool
  optional : Bool
  type : Option TypeNode
  initial : Option Expr

/-- **Signature** of a function type or a method; the return type may be missing. -/
structure SignatureNode where
  typeParams : List TypeParamNode
  params : List ParamNode
  returns : Option TypeNode

/-- **Mapped type.** -/
structure MappedNode where
  readonly : Option MappedModifier
  param : String
  constraint : Option TypeNode
  nameType : Option TypeNode
  optional : Option MappedModifier
  type : Option TypeNode

/-- **Member of an object type or an interface.** -/
inductive TypeMember where
  | property (key : PropKey) (optional readonly : Bool) (type : Option TypeNode)
      (doc : Option String)
  | method (key : PropKey) (optional : Bool) (signature : SignatureNode) (doc : Option String)
  | getter (key : PropKey) (type : Option TypeNode) (doc : Option String)
  | setter (key : PropKey) (param : ParamNode) (doc : Option String)
  /-- A signature under an index. -/
  | index (key : TypeNode) (type : Option TypeNode)
  /-- A call or construct signature. -/
  | call (signature : SignatureNode)

/-- **Expression**, as far as it is kept. -/
inductive Expr where
  | boolean (value : Bool)
  | number (value : Double)
  | string (value : String)
  | bigint (digits : String)
  | null
  | template
  | name (name : String)
  /-- A named member of an object. -/
  | member (object : Expr) (name : String)
  | unary (operator : String) (operand : Expr)
  | array
  | object (isEmpty : Bool)
  | new (callee : Expr)
  | parenthesized (inner : Expr)
  /-- An expression with its type asserted. -/
  | typed (inner : Expr) (type : TypeNode)
  | satisfies (inner : Expr) (type : TypeNode)
  | other

end

instance : Inhabited TypeNode := ⟨.thisType⟩

instance : Inhabited Expr := ⟨.other⟩

/-! ### Declarations -/

/-- The first documentation comment of several. -/
def firstDoc : List (Option String) → Option String
  | [] => none
  | some d :: _ => some d
  | none :: ds => firstDoc ds

/-- **Heritage**: a base named by an expression, with type arguments. -/
structure Heritage where
  base : Expr
  args : List TypeNode

/-- **Kinds of methods.** -/
inductive MethodKind where
  | method | getter | setter
  deriving DecidableEq, Repr, Inhabited

/-- **Constructor parameter.** One with an accessibility or another modifier declares a
property. -/
structure ConstructorParam where
  param : ParamNode
  isProperty : Bool
  readonly : Bool
  doc : Option String

/-- **Member of a class.** -/
inductive ClassMember where
  | property (isStatic : Bool) (key : PropKey) (optional readonly : Bool) (type : Option TypeNode)
      (value : Option Expr) (doc : Option String)
  | method (isStatic : Bool) (key : PropKey) (kind : MethodKind) (optional : Bool)
      (signature : SignatureNode) (doc : Option String)
  | constructor (params : List ConstructorParam)
  /-- A static block, an index signature or an accessor field. -/
  | other

/-- **Class.** -/
structure ClassNode where
  base : Option Heritage
  members : List ClassMember

/-- **Binding** of a variable statement. -/
structure Binding where
  shape : BindingShape
  type : Option TypeNode

/-- **Declaration.** The name of a class or function may be missing in a default export. -/
inductive DeclNode where
  | interface (name : String) (doc : Option String) (bases : List Heritage)
      (members : List TypeMember)
  | typeAlias (name : String) (doc : Option String) (type : TypeNode)
  | classDecl (name : Option String) (doc : Option String) (body : ClassNode)
  | enum (name : String) (doc : Option String)
  | function (name : Option String) (doc : Option String)
  | variable (doc : Option String) (bindings : List Binding)
  | namespaceDecl (name : String) (doc : Option String)
  /-- A declaration that introduces no name of the file. -/
  | nameless

/-! ### Module items -/

/-- **Imported binding**: the local name, and what it stands for. -/
inductive ImportNode where
  | named (localName imported : String)
  | all (localName : String)

/-- **Exported binding**: a name, or all of another module under one name. -/
inductive ExportNode where
  | named (exported origin : String)
  | all (exported : String)

/-- **Module item.** -/
inductive Item where
  | importFrom (specifier : String) (bindings : List ImportNode)
  /-- A declaration with `export` in front, and the documentation in front of that. -/
  | exportDecl (doc : Option String) (decl : DeclNode)
  | exportDefaultDecl (doc : Option String) (decl : DeclNode)
  | exportDefaultExpr (doc : Option String) (value : Expr)
  | exportNames (specifier : Option String) (names : List ExportNode)
  | exportAll (specifier : String)
  /-- An import or export form that binds nothing documentation can follow. -/
  | marker
  | decl (decl : DeclNode)
  | statement

end PropDocs.Source
