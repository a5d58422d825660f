import PropDocs.Docs.Documentation
import PropDocs.Docs.TypeDoc

/-!
# Props

A prop is a data property of a component's contract.  Props are collected by name: a name that
occurs again keeps its place and gets the later description.
-/

namespace PropDocs

/-- **Prop.** -/
structure PropDoc where
  name : String
  required : Bool
  type : TypeDoc
  description : String
  /-- The default that is documented, whatever the code does. -/
  defaultValue : Option String
  tags : TagMap
  deriving DecidableEq, Inhabited

/-- **Prop map.** Props by name, in order of discovery. -/
abbrev PropMap := OrderedMap PropDoc

namespace Engine

variable {σ τ δ : Type}

/-- The declaration a property is described at. -/
def descriptionSite? (e : Engine σ τ δ) (s : σ) : Option δ :=
  (e.valueDeclaration? s).or (e.declarations s).head?

/-- **Prop of a symbol**; `none` when the symbol is declared nowhere. -/
def propOf? (e : Engine σ τ δ) (extractEnums : Bool) (s : σ) : Option PropDoc :=
  match e.descriptionSite? s with
  | none => none
  | some site =>
    let doc := e.documentation s
    some
      { name := e.name s
        required := !(e.flags s).optional
        type := e.describeType extractEnums (e.typeAt s site)
        description := doc.description
        defaultValue := (doc.tags.get? "default").map TagValue.first
        tags := doc.tags }

/-- **Candidates.** The properties of a contract's type.  When it has none of its own, they are
those of the members of a union or, failing that, of an intersection. -/
def candidates (e : Engine σ τ δ) (contract : σ) : List σ :=
  let declared := e.declaredType contract
  match e.properties declared with
  | [] =>
    (((e.unionParts? declared).or (e.intersectionParts? declared)).getD []).flatMap e.properties
  | own => own

/-- **Props of a contract.** -/
def propsOf (e : Engine σ τ δ) (extractEnums : Bool) (contract : σ) : PropMap :=
  OrderedMap.ofList <|
    ((e.candidates contract).filter fun s => (e.flags s).property).filterMap fun s =>
      (e.propOf? extractEnums s).map fun prop => (prop.name, prop)

end Engine

end PropDocs
