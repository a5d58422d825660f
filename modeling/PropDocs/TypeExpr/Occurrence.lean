import Mathlib.Logic.Relation
import PropDocs.TypeExpr.Basic

/-!
# Types inside types

Which types are written inside a type, directly (`TypeExpr.parts`) or at any depth
(`TypeExpr.Occurs`).  Members, parameters and the other pieces of a type that are no types
themselves are looked through.
-/

namespace PropDocs

/-- The type asserted in an initial value. -/
def Initializer.types : Initializer → List TypeExpr
  | .typed t => [t]
  | _ => []

/-- The types written in a member: its annotation and what its initial value asserts. -/
def Member.types (m : Member) : List TypeExpr :=
  m.type.toList ++ m.initializer.toList.flatMap Initializer.types

/-- The type in a hole of a template. -/
def TemplatePart.types : TemplatePart → List TypeExpr
  | .text _ => []
  | .type t => [t]

/-- The constraint and the default of a type parameter. -/
def TypeParam.types (p : TypeParam) : List TypeExpr :=
  p.constraint.toList ++ p.default.toList

/-- The annotation of a parameter. -/
def Param.types (p : Param) : List TypeExpr :=
  p.type.toList

/-- The types written in a signature. -/
def Signature.types (s : Signature) : List TypeExpr :=
  s.typeParams.flatMap TypeParam.types ++ s.params.flatMap Param.types ++ [s.returns]

/-- The types written in a mapped type. -/
def MappedType.types (m : MappedType) : List TypeExpr :=
  m.constraint.toList ++ m.nameType.toList ++ m.type.toList

namespace TypeExpr

/-- **Parts.** The types written directly inside a type. -/
def parts : TypeExpr → List TypeExpr
  | .template ps => ps.flatMap TemplatePart.types
  | .reference _ args | .imported _ _ args => args
  | .array t | .optional t | .rest t | .operator _ t => [t]
  | .tuple elements => elements.map TupleElement.type
  | .union types | .intersection types => types
  | .function signature _ => signature.types
  | .object members => members.flatMap Member.types
  | .indexed base index => [base, index]
  | .conditional check bound yes no => [check, bound, yes, no]
  | .mapped m => m.types
  | .predicate _ _ type => type.toList
  | .keyword _ | .string _ | .number _ | .bigint _ | .boolean _ | .infer _ | .query _
  | .thisType => []

/-- **Occurrence.** `u.Occurs t`: the type `u` is `t` itself or written inside it, at any depth. -/
def Occurs : TypeExpr → TypeExpr → Prop :=
  Relation.ReflTransGen fun u t => u ∈ t.parts

theorem Occurs.refl (t : TypeExpr) : t.Occurs t :=
  Relation.ReflTransGen.refl

theorem Occurs.of_mem_parts {u t : TypeExpr} (h : u ∈ t.parts) : u.Occurs t :=
  Relation.ReflTransGen.single h

theorem Occurs.trans {u s t : TypeExpr} (h : u.Occurs s) (h' : s.Occurs t) : u.Occurs t :=
  Relation.ReflTransGen.trans h h'

/-- What occurs in a type is the type or occurs in one of its parts. -/
theorem occurs_iff {u t : TypeExpr} : u.Occurs t ↔ u = t ∨ ∃ s ∈ t.parts, u.Occurs s := by
  constructor
  · intro h
    rcases Relation.ReflTransGen.cases_tail h with rfl | ⟨s, hs, ht⟩
    · exact .inl rfl
    · exact .inr ⟨s, ht, hs⟩
  · rintro (rfl | ⟨s, hs, h⟩)
    · exact .refl u
    · exact h.trans (.of_mem_parts hs)

/-- What holds of a type and of everything inside its parts holds of everything inside it. -/
theorem forall_occurs_of_parts {P : TypeExpr → Prop} {t : TypeExpr} (ht : P t)
    (hparts : ∀ u ∈ t.parts, ∀ s : TypeExpr, s.Occurs u → P s) :
    ∀ s : TypeExpr, s.Occurs t → P s := by
  intro s hs
  rcases occurs_iff.1 hs with rfl | ⟨u, hu, hsu⟩
  · exact ht
  · exact hparts u hu s hsu

end TypeExpr

end PropDocs
