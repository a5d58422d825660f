import PropDocs.Module.Loading
import PropDocs.TypeExpr.Occurrence

/-!
# Constituents of annotations

An annotation is a tree of types, and `TypeExpr.ofNode` makes a written type of it.  This file says
what becomes of the types inside the annotation.

* `TypeNode.constituents`: the types written directly inside an annotation, each with the place it
  stands at, and `Within`: those written at any depth, along places of a given kind;
* `occurs_ofNode_of_mem`: a constituent at a place that is kept occurs in the written type, by one
  lemma for each piece of syntax;
* `kept_reference_occurs`: so does every reference that stands at kept places all the way up;
* `table_cell_dropped`: a reference under an index does not occur, since an object type has members
  with names only.
-/

namespace PropDocs

open Source

namespace Source

/-! ### Places -/

/-- **Places** at which a type can be written inside another one.  All but the first hold what a
written type has no room for, or leaves empty. -/
inductive Place where
  /-- An element, an operand, a type argument of a name, a part of a conditional or mapped type, a
  hole of a template, and whatever a signature or a member with a fixed name holds. -/
  | inner
  /-- The key or the value of an index signature. -/
  | indexSignature
  /-- Inside a call or construct signature of an object type. -/
  | callSignature
  /-- Inside a member whose key is no name, string or number. -/
  | unnamedMember
  /-- The constraint of an inferred type. -/
  | inferConstraint
  /-- A type argument behind the type of a value. -/
  | queryArg
  /-- A type argument behind an imported type. -/
  | importArg
  deriving DecidableEq, Repr

/-- The places that a written type keeps. -/
def Place.isKept : Place → Bool
  | .inner => true
  | _ => false

/-- The place of what a member with the given key holds. -/
def PropKey.place : PropKey → Place
  | .name _ | .string _ | .number _ => .inner
  | _ => .unnamedMember

/-! ### Constituents -/

/-- The type in a hole of a template. -/
def TemplateNode.types : TemplateNode → List TypeNode
  | .text _ => []
  | .type t => [t]

/-- The constraint and the default of a type parameter. -/
def TypeParamNode.types (p : TypeParamNode) : List TypeNode :=
  p.constraint.toList ++ p.default.toList

/-- The annotation of a parameter. -/
def ParamNode.types (p : ParamNode) : List TypeNode :=
  p.type.toList

/-- The types written in a signature. -/
def SignatureNode.types (s : SignatureNode) : List TypeNode :=
  s.typeParams.flatMap TypeParamNode.types ++ s.params.flatMap ParamNode.types ++ s.returns.toList

/-- The types written in a mapped type. -/
def MappedNode.types (m : MappedNode) : List TypeNode :=
  m.constraint.toList ++ m.nameType.toList ++ m.type.toList

/-- Types that all stand at one place. -/
def Place.hold (place : Place) (types : List TypeNode) : List (Place × TypeNode) :=
  types.map fun t => (place, t)

/-- The types written in a member, with their places. -/
def TypeMember.constituents : TypeMember → List (Place × TypeNode)
  | .property key _ _ type _ => key.place.hold type.toList
  | .method key _ signature _ => key.place.hold signature.types
  | .getter key type _ => key.place.hold type.toList
  | .setter key param _ => key.place.hold param.types
  | .index key type => Place.indexSignature.hold (key :: type.toList)
  | .call signature => Place.callSignature.hold signature.types

/-- **Constituents.** The types written directly inside an annotation, with their places. -/
def TypeNode.constituents : TypeNode → List (Place × TypeNode)
  | .template parts => Place.inner.hold (parts.flatMap TemplateNode.types)
  | .reference _ args => Place.inner.hold args
  | .query _ args | .queryImport _ _ args => Place.queryArg.hold args
  | .imported _ _ args => Place.importArg.hold args
  | .array t | .optional t | .rest t | .operator _ t | .parenthesized t => Place.inner.hold [t]
  | .tuple elements => Place.inner.hold (elements.map TupleNode.type)
  | .union types | .intersection types => Place.inner.hold types
  | .function signature _ => Place.inner.hold signature.types
  | .literal members => members.flatMap TypeMember.constituents
  | .indexed base index => Place.inner.hold [base, index]
  | .conditional check bound yes no => Place.inner.hold [check, bound, yes, no]
  | .mapped m => Place.inner.hold m.types
  | .infer _ constraint => Place.inferConstraint.hold constraint.toList
  | .predicate _ _ type => Place.inner.hold type.toList
  | .keyword _ | .thisType | .string _ | .number _ | .bigint _ | .boolean _ => []

/-- **Within.** `Within places u t`: the annotation `u` is `t` itself or written inside it, at any
depth, and every place on the way is one of the given ones. -/
inductive Within (places : Place → Prop) : TypeNode → TypeNode → Prop
  | here (t : TypeNode) : Within places t t
  | inside {place : Place} {u s t : TypeNode} (hs : (place, s) ∈ t.constituents)
      (hplace : places place) (hu : Within places u s) : Within places u t

theorem mem_hold {place place' : Place} {types : List TypeNode} {t : TypeNode} :
    (place, t) ∈ place'.hold types ↔ place = place' ∧ t ∈ types := by
  simp only [Place.hold, List.mem_map, Prod.mk.injEq]
  grind

end Source

/-! ### Lists and options of types -/

theorem TypeExpr.ofNodes_eq_map (ts : List TypeNode) :
    TypeExpr.ofNodes ts = ts.map TypeExpr.ofNode := by
  induction ts with
  | nil => rw [TypeExpr.ofNodes, List.map_nil]
  | cons t ts ih => rw [TypeExpr.ofNodes, List.map_cons, ih]

theorem TypeExpr.ofOption_eq_map (t : Option TypeNode) :
    TypeExpr.ofOption t = t.map TypeExpr.ofNode := by
  cases t with
  | none => rw [TypeExpr.ofOption, Option.map_none]
  | some t => rw [TypeExpr.ofOption, Option.map_some]

theorem mem_toList_ofOption {t : TypeNode} {o : Option TypeNode} (h : t ∈ o.toList) :
    TypeExpr.ofNode t ∈ (TypeExpr.ofOption o).toList := by
  rw [TypeExpr.ofOption_eq_map, Option.toList_map]
  exact List.mem_map_of_mem h

/-! ### What each piece of syntax keeps -/

section

variable {t : TypeNode}

theorem mem_types_templateParts {parts : List TemplateNode}
    (h : t ∈ parts.flatMap TemplateNode.types) :
    TypeExpr.ofNode t ∈ (TemplatePart.ofNodes parts).flatMap TemplatePart.types := by
  induction parts with
  | nil => cases h
  | cons part parts ih =>
    rw [List.flatMap_cons, List.mem_append] at h
    cases part with
    | text text =>
      rw [TemplatePart.ofNodes, List.flatMap_cons, List.mem_append]
      rcases h with h | h
      · cases h
      · exact .inr (ih h)
    | type u =>
      rw [TemplatePart.ofNodes, List.flatMap_cons, List.mem_append]
      rcases h with h | h
      · rw [List.mem_singleton.1 h]
        exact .inl (List.mem_singleton_self _)
      · exact .inr (ih h)

theorem mem_types_tupleElements {elements : List TupleNode}
    (h : t ∈ elements.map TupleNode.type) :
    TypeExpr.ofNode t ∈ (TupleElement.ofNodes elements).map TupleElement.type := by
  induction elements with
  | nil => cases h
  | cons e elements ih =>
    obtain ⟨label, u⟩ := e
    rw [TupleElement.ofNodes, List.map_cons]
    rcases List.mem_cons.1 h with rfl | h
    · exact List.mem_cons_self
    · exact List.mem_cons_of_mem _ (ih h)

theorem mem_types_typeParams {params : List TypeParamNode}
    (h : t ∈ params.flatMap TypeParamNode.types) :
    TypeExpr.ofNode t ∈ (TypeParam.ofNodes params).flatMap TypeParam.types := by
  induction params with
  | nil => cases h
  | cons p params ih =>
    obtain ⟨name, constraint, default⟩ := p
    rw [List.flatMap_cons, List.mem_append, TypeParamNode.types, List.mem_append] at h
    rw [TypeParam.ofNodes, List.flatMap_cons, List.mem_append, TypeParam.types, List.mem_append]
    rcases h with (h | h) | h
    · exact .inl (.inl (mem_toList_ofOption h))
    · exact .inl (.inr (mem_toList_ofOption h))
    · exact .inr (ih h)

theorem mem_types_params {params : List ParamNode} (index : Nat)
    (h : t ∈ params.flatMap ParamNode.types) :
    TypeExpr.ofNode t ∈ (Param.ofNodes index params).flatMap Param.types := by
  induction params generalizing index with
  | nil => cases h
  | cons p params ih =>
    rw [List.flatMap_cons, List.mem_append] at h
    rw [Param.ofNodes, List.flatMap_cons, List.mem_append]
    rcases h with h | h
    · obtain ⟨shape, rest, optional, type, initial⟩ := p
      rw [Param.ofNode]
      exact .inl (mem_toList_ofOption h)
    · exact .inr (ih (index + 1) h)

theorem mem_types_signature {s : SignatureNode} (h : t ∈ s.types) :
    TypeExpr.ofNode t ∈ (Signature.ofNode s).types := by
  obtain ⟨typeParams, params, returns⟩ := s
  rw [SignatureNode.types, List.mem_append, List.mem_append] at h
  rw [Signature.ofNode, Signature.types, List.mem_append, List.mem_append]
  rcases h with (h | h) | h
  · exact .inl (.inl (mem_types_typeParams h))
  · exact .inl (.inr (mem_types_params 0 h))
  · obtain rfl : returns = some t := Option.mem_toList.1 h
    rw [TypeExpr.ofOption]
    exact .inr (List.mem_singleton_self _)

theorem mem_types_mapped {m : MappedNode} (h : t ∈ m.types) :
    TypeExpr.ofNode t ∈ (MappedType.ofNode m).types := by
  obtain ⟨readonly, param, constraint, nameType, optional, type⟩ := m
  rw [MappedNode.types, List.mem_append, List.mem_append] at h
  rw [MappedType.ofNode, MappedType.types, List.mem_append, List.mem_append]
  rcases h with (h | h) | h
  · exact .inl (.inl (mem_toList_ofOption h))
  · exact .inl (.inr (mem_toList_ofOption h))
  · exact .inr (mem_toList_ofOption h)

/-- A key that keeps what its member holds gives the member a name. -/
theorem exists_typeKeyName? {key : PropKey} (h : key.place.isKept = true) :
    ∃ name, typeKeyName? key = some name := by
  cases key with
  | name n => exact ⟨n, rfl⟩
  | string s => exact ⟨s, rfl⟩
  | number x => exact ⟨x.render, rfl⟩
  | bigint digits => cases h
  | computed => cases h
  | hashName => cases h

/-- **Members.** What a member holds at a kept place occurs in the member that is made of it.  The
type of a method is a function type around what its signature holds. -/
theorem occurs_member {m : TypeMember} {place : Place} (hplace : place.isKept = true)
    (h : (place, t) ∈ m.constituents) :
    ∃ m', Member.ofNode? m = some m' ∧ ∃ u ∈ m'.types, (TypeExpr.ofNode t).Occurs u := by
  have hoption : ∀ {o : Option TypeNode} {m' : Member}, t ∈ o.toList →
      m'.type = TypeExpr.ofOption o → ∃ u ∈ m'.types, (TypeExpr.ofNode t).Occurs u := by
    intro o m' ht htype
    refine ⟨TypeExpr.ofNode t, ?_, .refl _⟩
    rw [Member.types, htype, List.mem_append]
    exact .inl (mem_toList_ofOption ht)
  cases m with
  | property key optional readonly type doc =>
    obtain ⟨rfl, ht⟩ := mem_hold.1 h
    obtain ⟨name, hname⟩ := exists_typeKeyName? hplace
    rw [Member.ofNode?, hname]
    exact ⟨_, rfl, hoption ht rfl⟩
  | method key optional signature doc =>
    obtain ⟨rfl, ht⟩ := mem_hold.1 h
    obtain ⟨name, hname⟩ := exists_typeKeyName? hplace
    rw [Member.ofNode?, hname]
    refine ⟨_, rfl, .function (Signature.ofNode signature) false, ?_, ?_⟩
    · rw [Member.types, List.mem_append]
      exact .inl (List.mem_singleton_self _)
    · exact .of_mem_parts (mem_types_signature ht)
  | getter key type doc =>
    obtain ⟨rfl, ht⟩ := mem_hold.1 h
    obtain ⟨name, hname⟩ := exists_typeKeyName? hplace
    rw [Member.ofNode?, hname]
    exact ⟨_, rfl, hoption ht rfl⟩
  | setter key param doc =>
    obtain ⟨rfl, ht⟩ := mem_hold.1 h
    obtain ⟨name, hname⟩ := exists_typeKeyName? hplace
    obtain ⟨shape, rest, optional, type, initial⟩ := param
    rw [Member.ofNode?, hname, Param.ofNode]
    exact ⟨_, rfl, hoption ht rfl⟩
  | index key type =>
    obtain ⟨rfl, -⟩ := mem_hold.1 h
    cases hplace
  | call signature =>
    obtain ⟨rfl, -⟩ := mem_hold.1 h
    cases hplace

theorem mem_ofNodes_of_mem {members : List TypeMember} {m : TypeMember} {m' : Member}
    (hm : m ∈ members) (h : Member.ofNode? m = some m') : m' ∈ Member.ofNodes members := by
  induction members with
  | nil => cases hm
  | cons n members ih =>
    rw [Member.ofNodes]
    rcases List.mem_cons.1 hm with rfl | hm
    · rw [h]
      exact List.mem_cons_self
    · cases Member.ofNode? n with
      | none => exact ih hm
      | some n' => exact List.mem_cons_of_mem _ (ih hm)

/-! ### All forms of types -/

/-- **One step.** A constituent at a kept place occurs in the written type. -/
theorem occurs_ofNode_of_mem {s : TypeNode} {place : Place} (hplace : place.isKept = true)
    (h : (place, t) ∈ s.constituents) : (TypeExpr.ofNode t).Occurs (TypeExpr.ofNode s) := by
  cases s with
  | keyword k => cases h
  | thisType => cases h
  | string value => cases h
  | number value => cases h
  | bigint digits => cases h
  | boolean value => cases h
  | template parts =>
    rw [TypeExpr.ofNode]
    exact .of_mem_parts (mem_types_templateParts (mem_hold.1 h).2)
  | reference name args =>
    rw [TypeExpr.ofNode, TypeExpr.ofNodes_eq_map]
    exact .of_mem_parts (List.mem_map_of_mem (mem_hold.1 h).2)
  | query name args =>
    obtain ⟨rfl, -⟩ := mem_hold.1 h
    cases hplace
  | queryImport argument qualifier args =>
    obtain ⟨rfl, -⟩ := mem_hold.1 h
    cases hplace
  | imported argument qualifier args =>
    obtain ⟨rfl, -⟩ := mem_hold.1 h
    cases hplace
  | array u =>
    obtain rfl := List.mem_singleton.1 (mem_hold.1 h).2
    rw [TypeExpr.ofNode]
    exact .of_mem_parts (List.mem_singleton_self _)
  | tuple elements =>
    rw [TypeExpr.ofNode]
    exact .of_mem_parts (mem_types_tupleElements (mem_hold.1 h).2)
  | optional u =>
    obtain rfl := List.mem_singleton.1 (mem_hold.1 h).2
    rw [TypeExpr.ofNode]
    exact .of_mem_parts (List.mem_singleton_self _)
  | rest u =>
    obtain rfl := List.mem_singleton.1 (mem_hold.1 h).2
    rw [TypeExpr.ofNode]
    exact .of_mem_parts (List.mem_singleton_self _)
  | union types =>
    rw [TypeExpr.ofNode, TypeExpr.ofNodes_eq_map]
    exact .of_mem_parts (List.mem_map_of_mem (mem_hold.1 h).2)
  | intersection types =>
    rw [TypeExpr.ofNode, TypeExpr.ofNodes_eq_map]
    exact .of_mem_parts (List.mem_map_of_mem (mem_hold.1 h).2)
  | function signature isConstructor =>
    rw [TypeExpr.ofNode]
    exact .of_mem_parts (mem_types_signature (mem_hold.1 h).2)
  | literal members =>
    obtain ⟨m, hm, ht⟩ := List.mem_flatMap.1 h
    obtain ⟨m', hm', u, hu, hocc⟩ := occurs_member hplace ht
    rw [TypeExpr.ofNode]
    exact hocc.trans (.of_mem_parts (List.mem_flatMap.2 ⟨m', mem_ofNodes_of_mem hm hm', hu⟩))
  | operator op u =>
    obtain rfl := List.mem_singleton.1 (mem_hold.1 h).2
    rw [TypeExpr.ofNode]
    exact .of_mem_parts (List.mem_singleton_self _)
  | indexed base index =>
    rw [TypeExpr.ofNode]
    exact .of_mem_parts (List.mem_map_of_mem (f := TypeExpr.ofNode) (mem_hold.1 h).2)
  | conditional check bound yes no =>
    rw [TypeExpr.ofNode]
    exact .of_mem_parts (List.mem_map_of_mem (f := TypeExpr.ofNode) (mem_hold.1 h).2)
  | mapped m =>
    rw [TypeExpr.ofNode]
    exact .of_mem_parts (mem_types_mapped (mem_hold.1 h).2)
  | infer name constraint =>
    obtain ⟨rfl, -⟩ := mem_hold.1 h
    cases hplace
  | parenthesized u =>
    -- Parentheses leave no trace, so the constituent is the written type itself.
    obtain rfl := List.mem_singleton.1 (mem_hold.1 h).2
    rw [TypeExpr.ofNode]
    exact .refl _
  | predicate asserts param type =>
    rw [TypeExpr.ofNode]
    exact .of_mem_parts (mem_toList_ofOption (mem_hold.1 h).2)

/-- **At any depth.** What stands at kept places all the way up occurs in the written type. -/
theorem occurs_ofNode_of_within {s : TypeNode} (h : Within (·.isKept = true) t s) :
    (TypeExpr.ofNode t).Occurs (TypeExpr.ofNode s) := by
  induction h with
  | here t => exact .refl _
  | inside hs hplace _ ih => exact ih.trans (occurs_ofNode_of_mem hplace hs)

end

/-- **References are kept.** A named type, written anywhere inside an annotation but outside index
signatures, call and construct signatures, members without a fixed name, constraints of inferred
types and type arguments behind type queries and imported types, occurs in the written type, with its
type arguments. -/
theorem kept_reference_occurs (t : TypeNode) (name : List String) (args : List TypeNode)
    (h : Within (·.isKept = true) (.reference name args) t) :
    (TypeExpr.reference (dotted name) (args.map TypeExpr.ofNode)).Occurs (TypeExpr.ofNode t) := by
  have hocc := occurs_ofNode_of_within h
  rwa [TypeExpr.ofNode, TypeExpr.ofNodes_eq_map] at hocc

/-- A tuple with one element, a promise of a row. -/
def promisedRow : TypeNode :=
  .tuple [{ label := some { name := "first", optional := false, rest := false }
            type := .reference ["Promise"] [.reference ["grid", "Row"] []] }]

/-- **Pager.** The annotation of an object type with one method, which may return a promised row. -/
def pager : TypeNode :=
  .literal
    [.method (.name "page") true
      { typeParams := [], params := [], returns := some (.union [promisedRow, .keyword .null]) } none]

set_option maxRecDepth 4000 in
/-- Five places lead down to the row: a member, its return type, a union, a tuple and a type
argument. -/
theorem pager_row_occurs :
    parseModule? {} "type Pager = \x7b page?(): [first: Promise<grid.Row>] | null \x7d" =
        some [.decl (.typeAlias "Pager" none pager)] ∧
      Within (·.isKept = true) (.reference ["grid", "Row"] []) pager ∧
      (TypeExpr.reference "grid.Row" []).Occurs (TypeExpr.ofNode pager) := by
  have hrow : Within (·.isKept = true) (.reference ["grid", "Row"] []) promisedRow :=
    .inside (mem_hold.2 ⟨rfl, List.mem_cons_self⟩) rfl
      (.inside (mem_hold.2 ⟨rfl, List.mem_cons_self⟩) rfl (.here _))
  have hunion : Within (·.isKept = true) (.reference ["grid", "Row"] [])
      (.union [promisedRow, .keyword .null]) :=
    .inside (mem_hold.2 ⟨rfl, List.mem_cons_self⟩) rfl hrow
  have hpager : Within (·.isKept = true) (.reference ["grid", "Row"] []) pager :=
    .inside (List.mem_flatMap.2 ⟨_, List.mem_cons_self, mem_hold.2 ⟨rfl, List.mem_cons_self⟩⟩) rfl
      hunion
  exact ⟨by rfl, hpager, kept_reference_occurs pager ["grid", "Row"] [] hpager⟩

/-! ### What an annotation loses -/

/-- **Table.** The annotation of an object type whose cells stand under an index. -/
def table : TypeNode :=
  .literal [.index (.keyword .string) (some (.reference ["Cell"] []))]

/-- The value of the index signature is a constituent of the annotation, and occurs nowhere in the
written type, which is an object type without members. -/
theorem table_cell_dropped :
    parseModule? {} "type Table = \x7b [key: string]: Cell \x7d" =
        some [.decl (.typeAlias "Table" none table)] ∧
      Within (fun _ => True) (.reference ["Cell"] []) table ∧
      ¬ ∃ args, (TypeExpr.reference "Cell" args).Occurs (TypeExpr.ofNode table) := by
  refine ⟨by rfl, ?_, ?_⟩
  · have hcell : TypeNode.reference ["Cell"] [] ∈ [.keyword .string, .reference ["Cell"] []] :=
      List.mem_cons_of_mem _ List.mem_cons_self
    exact .inside (List.mem_flatMap.2 ⟨_, List.mem_cons_self, mem_hold.2 ⟨rfl, hcell⟩⟩) trivial
      (.here _)
  · rintro ⟨args, h⟩
    have htable : TypeExpr.ofNode table = .object [] := by
      rw [table, TypeExpr.ofNode, Member.ofNodes, Member.ofNode?, Member.ofNodes]
    rw [htable] at h
    rcases TypeExpr.occurs_iff.1 h with h | ⟨s, hs, -⟩
    · cases h
    · cases hs

end PropDocs
