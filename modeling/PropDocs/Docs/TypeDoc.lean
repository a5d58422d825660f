import PropDocs.Engine.Basic

/-!
# Types in documents

The type of a prop in a document: its text or, where asked for, a list of values when the type is a
union of string literals.
-/

namespace PropDocs

/-- **Type of a prop.** For an enumeration, `name` is `enum`, `raw` the text of the type and
`values` the quoted literals. -/
structure TypeDoc where
  name : String
  raw : Option String := none
  values : Option (List String) := none
  deriving DecidableEq, Repr, Inhabited

namespace TypeDoc

/-- A type known by its text. -/
def named (name : String) : TypeDoc := { name }

/-- An enumeration. -/
def enumeration (raw : String) (values : List String) : TypeDoc :=
  { name := "enum", raw := some raw, values := some values }

/-- The type is described by its values. -/
def isEnum (d : TypeDoc) : Bool :=
  d.values.isSome

end TypeDoc

/-- A literal in double quotes, its characters as they are. -/
def quoteLiteral (s : String) : String :=
  "\"" ++ s ++ "\""

namespace Engine

variable {σ τ δ : Type}

/-- **Literal union.** The literals of a union that has members and consists of string literals
only, quoted. -/
def literalUnion? (e : Engine σ τ δ) (t : τ) : Option (List String) := do
  let literals ← (← e.unionParts? t).mapM e.stringLiteral?
  if literals.isEmpty then none else some (literals.map quoteLiteral)

/-- **Description of a type.** -/
def describeType (e : Engine σ τ δ) (extractEnums : Bool) (t : τ) : TypeDoc :=
  if extractEnums then
    match e.literalUnion? t with
    | some values => .enumeration (e.print t) values
    | none => .named (e.print t)
  else .named (e.print t)

end Engine

end PropDocs
