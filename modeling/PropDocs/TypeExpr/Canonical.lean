import Mathlib.Data.List.Chain
import Mathlib.Data.Set.Defs
import PropDocs.Text.CharClass
import PropDocs.TypeExpr.Occurrence
import PropDocs.TypeExpr.Printer

/-!
# Canonical types

A type is canonical when it is written the way its text would be read back: names are names, the
pieces whose absence the printer fills in are there, and every form stands where it belongs.

* `IsName`, `IsDottedName`: identifiers that are no words of the printer;
* `TypeExpr.WellFormed`: what a type asks of its own fields and of the forms of its parts;
* `TypeExpr.Canonical`: a type that can stand on its own, with only well-formed types inside.
-/

namespace PropDocs

open Text

/-! ### Names -/

/-- **Printed words.** The words that a printed type holds besides its names. -/
def printedWords : List String :=
  Keyword.all.map Keyword.text ++
    ["true", "false", "this", "keyof", "unique", "readonly", "infer", "typeof", "import", "new",
      "asserts", "is", "extends", "as", "in", "get", "set"]

/-- A character a name may start with, followed by characters with the property `p`. -/
def isNameOf (p : Char → Bool) (s : String) : Bool :=
  match s.toList with
  | [] => false
  | c :: cs => isNameStart c && cs.all p

/-- **Name.** An identifier that is no printed word. -/
def IsName (s : String) : Prop :=
  isNameOf isNamePart s = true ∧ s ∉ printedWords

/-- **Dotted name.** Like a name, with dots inside it. -/
def IsDottedName (s : String) : Prop :=
  isNameOf (fun c => isNamePart c || c == '.') s = true ∧ s ∉ printedWords

/-! ### Places of types -/

namespace TypeExpr

/-- **Plain.** A type that may stand anywhere; optional and rest elements stand in tuples, and
predicates behind parameters. -/
def isPlain : TypeExpr → Bool
  | .optional _ | .rest _ | .predicate _ _ _ => false
  | _ => true

/-- A type that may be the type of a tuple element. -/
def isElement : TypeExpr → Bool
  | .predicate _ _ _ => false
  | _ => true

/-- A type that may be returned. -/
def isReturn : TypeExpr → Bool
  | .optional _ | .rest _ => false
  | _ => true

/-- A union of any number of types. -/
def isUnion : TypeExpr → Bool
  | .union _ => true
  | _ => false

/-- An intersection of any number of types. -/
def isIntersection : TypeExpr → Bool
  | .intersection _ => true
  | _ => false

end TypeExpr

/-! ### Well-formed pieces -/

/-- Text of a template: something, and neither its end nor the start of a hole. -/
def TemplatePart.WellFormed : TemplatePart → Prop
  | .text s => s ≠ "" ∧ '`' ∉ s.toList ∧ ¬ ['$', '\x7b'] <:+: s.toList
  | .type t => t.isPlain

/-- A part of a template that is text. -/
def TemplatePart.isText : TemplatePart → Bool
  | .text _ => true
  | .type _ => false

/-- A tuple element with a name for its label, if it has one. -/
structure TupleElement.WellFormed (e : TupleElement) : Prop where
  label_isName : ∀ l ∈ e.label, IsName l
  type_isElement : e.type.isElement

/-- A type parameter with a name. -/
structure TypeParam.WellFormed (p : TypeParam) : Prop where
  name_isName : IsName p.name
  types_isPlain : ∀ t ∈ p.types, t.isPlain

/-- A parameter with a name and an annotation. -/
structure Param.WellFormed (p : Param) : Prop where
  name_isName : IsName p.name
  type_isPlain : ∃ t, p.type = some t ∧ t.isPlain

/-- A signature of well-formed parameters. -/
structure Signature.WellFormed (s : Signature) : Prop where
  typeParams_wellFormed : ∀ p ∈ s.typeParams, p.WellFormed
  params_wellFormed : ∀ p ∈ s.params, p.WellFormed
  returns_isReturn : s.returns.isReturn

/-- What a member's kind asks of its flags and its annotation: a method is a function and is not
read-only, an accessor has no flags. -/
def Member.FitsKind (m : Member) : Prop :=
  match m.kind with
  | .method => m.readonly = false ∧ ∃ s, m.type = some (.function s false)
  | .property => ∃ t, m.type = some t ∧ t.isPlain
  | .getter | .setter =>
    m.optional = false ∧ m.readonly = false ∧ ∃ t, m.type = some t ∧ t.isPlain

/-- A member with a name, an annotation and nothing that is not printed. -/
structure Member.WellFormed (m : Member) : Prop where
  name_isName : IsName m.name
  fits : m.FitsKind
  no_initializer : m.initializer = none
  no_doc : m.doc = {}

/-- A mapped type with its annotations. -/
structure MappedType.WellFormed (m : MappedType) : Prop where
  param_isName : IsName m.param
  constraint_isPlain : ∃ t, m.constraint = some t ∧ t.isPlain
  nameType_isPlain : ∀ t ∈ m.nameType, t.isPlain
  type_isPlain : ∃ t, m.type = some t ∧ t.isPlain

namespace TypeExpr

/-- **Well-formed.** What a type asks of its own fields and of the forms of the types directly
inside it. -/
def WellFormed : TypeExpr → Prop
  | .keyword _ | .string _ | .boolean _ | .thisType => True
  | .number x => x.isFinite
  | .bigint digits => digits ≠ "" ∧ digits.toList.all Char.isDigit
  | .template ps =>
    (∀ p ∈ ps, p.WellFormed) ∧ ps.IsChain fun p q => ¬ (p.isText ∧ q.isText)
  | .reference name args => IsDottedName name ∧ ∀ t ∈ args, t.isPlain
  | .array t | .optional t | .rest t | .operator _ t => t.isPlain
  | .tuple elements => ∀ e ∈ elements, e.WellFormed
  | .union types => 2 ≤ types.length ∧ ∀ t ∈ types, t.isPlain ∧ t.isUnion = false
  | .intersection types => 2 ≤ types.length ∧ ∀ t ∈ types, t.isPlain ∧ t.isIntersection = false
  | .function signature _ => signature.WellFormed
  | .object members => ∀ m ∈ members, m.WellFormed
  | .indexed base index => base.isPlain ∧ index.isPlain
  | .conditional check bound yes no => check.isPlain ∧ bound.isPlain ∧ yes.isPlain ∧ no.isPlain
  | .mapped m => m.WellFormed
  | .infer name => IsName name
  | .query name => IsDottedName name
  | .imported argument qualifier args =>
    '"' ∉ argument.toList ∧ (∀ q ∈ qualifier, IsDottedName q) ∧ ∀ t ∈ args, t.isPlain
  | .predicate asserts param type =>
    IsName param ∧ (asserts ∨ type.isSome) ∧ ∀ t ∈ type, t.isPlain

/-- **Canonical.** A plain type in which every type is well-formed. -/
def Canonical (t : TypeExpr) : Prop :=
  t.isPlain ∧ ∀ s : TypeExpr, s.Occurs t → s.WellFormed

/-- The numbers that occur as types inside a type. -/
def numbers (t : TypeExpr) : Set Double :=
  {x | (TypeExpr.number x).Occurs t}

end TypeExpr

end PropDocs
