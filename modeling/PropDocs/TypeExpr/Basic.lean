import PropDocs.DocComment
import PropDocs.Number.Double

/-!
# Written types

`TypeExpr` is a type the way a declaration writes it.  Names inside it are not resolved: what they
stand for depends on the file the type was written in.

The same block defines the members of interfaces, classes and object types, because object types
hold members and members hold types.  A member that has no annotation may have an `Initializer`,
the little that is kept of the expression it starts with.
-/

namespace PropDocs

/-- **Keyword types.** -/
inductive Keyword where
  | any | unknown | never | void | undefined | null
  | string | number | boolean | bigint | symbol | object | intrinsic
  deriving DecidableEq, Repr, Inhabited

/-- The keyword's spelling. -/
def Keyword.text : Keyword → String
  | .any => "any"
  | .unknown => "unknown"
  | .never => "never"
  | .void => "void"
  | .undefined => "undefined"
  | .null => "null"
  | .string => "string"
  | .number => "number"
  | .boolean => "boolean"
  | .bigint => "bigint"
  | .symbol => "symbol"
  | .object => "object"
  | .intrinsic => "intrinsic"

/-- All keyword types. -/
def Keyword.all : List Keyword :=
  [.any, .unknown, .never, .void, .undefined, .null, .string, .number, .boolean, .bigint, .symbol,
    .object, .intrinsic]

/-- The keyword type with the given spelling. -/
def Keyword.ofText? (s : String) : Option Keyword :=
  Keyword.all.find? fun k => k.text == s

/-- **Type operators**, written in front of their operand. -/
inductive TypeOperator where
  | keyof | unique | readonly
  deriving DecidableEq, Repr, Inhabited

/-- The operator's spelling. -/
def TypeOperator.text : TypeOperator → String
  | .keyof => "keyof"
  | .unique => "unique"
  | .readonly => "readonly"

/-- **Modifier** of a mapped type: bare, or with a sign in front. -/
inductive MappedModifier where
  | present | plus | minus
  deriving DecidableEq, Repr, Inhabited

/-- The sign in front of a modifier. -/
def MappedModifier.sign : MappedModifier → String
  | .present => ""
  | .plus => "+"
  | .minus => "-"

/-- **Kinds of members.** -/
inductive MemberKind where
  | property | method | getter | setter
  deriving DecidableEq, Repr, Inhabited

mutual

/-- **Written type.** -/
inductive TypeExpr where
  | keyword (keyword : Keyword)
  /-- The type of one string. -/
  | string (value : String)
  /-- The type of one number. -/
  | number (value : Double)
  /-- The type of one big integer, by its digits. -/
  | bigint (digits : String)
  /-- The type of one truth value. -/
  | boolean (value : Bool)
  /-- A template string with types in its holes. -/
  | template (parts : List TemplatePart)
  /-- A name, dotted or not, with type arguments. -/
  | reference (name : String) (args : List TypeExpr)
  | array (element : TypeExpr)
  | tuple (elements : List TupleElement)
  /-- A tuple element that may be missing. -/
  | optional (inner : TypeExpr)
  /-- A tuple element that stands for any number of elements. -/
  | rest (inner : TypeExpr)
  | union (types : List TypeExpr)
  | intersection (types : List TypeExpr)
  | function (signature : Signature) (isConstructor : Bool)
  /-- An object type written out. -/
  | object (members : List Member)
  | operator (operator : TypeOperator) (inner : TypeExpr)
  | indexed (object : TypeExpr) (index : TypeExpr)
  | conditional (check : TypeExpr) (bound : TypeExpr) (yes : TypeExpr) (no : TypeExpr)
  | mapped (mapped : MappedType)
  | infer (name : String)
  | query (name : String)
  /-- A type imported in place. -/
  | imported (argument : String) (qualifier : Option String) (args : List TypeExpr)
  | predicate (asserts : Bool) (param : String) (type : Option TypeExpr)
  | thisType

/-- **Part of a template type**: text as it stands in the source, or a type. -/
inductive TemplatePart where
  | text (text : String)
  | type (type : TypeExpr)

/-- **Tuple element**, with or without a label. -/
structure TupleElement where
  label : Option String
  type : TypeExpr

/-- **Type parameter** of a function type. -/
structure TypeParam where
  name : String
  constraint : Option TypeExpr
  default : Option TypeExpr

/-- **Parameter** of a function type. -/
structure Param where
  name : String
  optional : Bool
  rest : Bool
  type : Option TypeExpr

/-- **Signature** of a function type. -/
structure Signature where
  typeParams : List TypeParam
  params : List Param
  returns : TypeExpr

/-- **Mapped type.** -/
structure MappedType where
  readonly : Option MappedModifier
  param : String
  constraint : Option TypeExpr
  nameType : Option TypeExpr
  optional : Option MappedModifier
  type : Option TypeExpr

/-- **Member** of an interface, a class or an object type.  The type of a method is a function
type. -/
structure Member where
  name : String
  kind : MemberKind
  optional : Bool
  readonly : Bool
  type : Option TypeExpr
  initializer : Option Initializer
  doc : DocComment

/-- **Initializer** of a member: the forms of expressions that say something about its type. -/
inductive Initializer where
  | boolean (value : Bool)
  | number (value : Double)
  | string (value : String)
  | template
  | bigint (digits : String)
  | null
  | undefined
  | array
  | emptyObject
  /-- A new object of a named class. -/
  | new (name : String)
  /-- An expression with its type asserted. -/
  | typed (type : TypeExpr)
  | other

end

instance : Inhabited TypeExpr := ⟨.thisType⟩

namespace TypeExpr

/-- The type of anything. -/
def any : TypeExpr := .keyword .any

/-- The type of the missing value. -/
def undefined : TypeExpr := .keyword .undefined

/-- A reference without type arguments. -/
def named (name : String) : TypeExpr := .reference name []

/-- **Nullish.** The types of the two missing values. -/
def isNullish : TypeExpr → Bool
  | .keyword .null | .keyword .undefined => true
  | _ => false

/-- The type of the undefined value. -/
def isUndefined : TypeExpr → Bool
  | .keyword .undefined => true
  | _ => false

end TypeExpr

end PropDocs
