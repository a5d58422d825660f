import PropDocs.TypeExpr.Occurrence
import PropDocs.TypeExpr.Printer

/-!
# Places of types

A place is a type with one of the types directly inside it left out, and a position is a way down
through places, to a type at any depth.  Filling a position puts a type there.

* `Join`: what unions and intersections have in common, and `Join.lone`: a join of a single type;
* `SignatureSlot`, `ElementSlot`, `MemberSlot`, `MappedSlot`: the places in the pieces of a type that are
  no types themselves;
* `Place`: the place of a type directly inside a type, with the `level` below which what stands there is
  put in parentheses;
* `Place.Admits`: which types are printed there on their own.  An optional or rest element behind a label
  and the function type of a method are taken apart, so there the places are those of the types inside
  them;
* `Position`: the places on the way down to a type.
-/

namespace PropDocs

/-! ### Joins -/

/-- **Joins.** The two forms that put a sign between types. -/
inductive Join where
  | union | intersection
  deriving DecidableEq, Repr, Inhabited

namespace Join

/-- The join of some types. -/
def type : Join → List TypeExpr → TypeExpr
  | .union, types => .union types
  | .intersection, types => .intersection types

/-- How tightly an operand has to bind to stand without parentheses. -/
def level : Join → Nat
  | .union => 1
  | .intersection => 2

/-- **Lone operand.** The join of a single type. -/
def lone (w : Join) (t : TypeExpr) : TypeExpr :=
  w.type [t]

end Join

/-! ### Places in pieces of types -/

/-- **Place in a signature**: the constraint or the default of a type parameter, the annotation of a
parameter, or what is returned. -/
inductive SignatureSlot where
  | constraint (before : List TypeParam) (p : TypeParam) (after : List TypeParam)
      (params : List Param) (returns : TypeExpr)
  | default (before : List TypeParam) (p : TypeParam) (after : List TypeParam)
      (params : List Param) (returns : TypeExpr)
  | param (typeParams : List TypeParam) (before : List Param) (p : Param) (after : List Param)
      (returns : TypeExpr)
  | result (typeParams : List TypeParam) (params : List Param)

/-- The signature with a type put into a place. -/
def SignatureSlot.fill : SignatureSlot → TypeExpr → Signature
  | .constraint before p after params returns, t =>
    ⟨before ++ { p with constraint := some t } :: after, params, returns⟩
  | .default before p after params returns, t =>
    ⟨before ++ { p with default := some t } :: after, params, returns⟩
  | .param typeParams before p after returns, t =>
    ⟨typeParams, before ++ { p with type := some t } :: after, returns⟩
  | .result typeParams params, t => ⟨typeParams, params, t⟩

/-- **Place in a tuple element**: the element's type, or the type inside it when its mark goes to the
label. -/
inductive ElementSlot where
  | type (label : Option String)
  | optional (label : String)
  | rest (label : String)

/-- The element with a type put into a place. -/
def ElementSlot.fill : ElementSlot → TypeExpr → TupleElement
  | .type label, t => ⟨label, t⟩
  | .optional label, t => ⟨some label, .optional t⟩
  | .rest label, t => ⟨some label, .rest t⟩

/-- **Place in a member**: its annotation, a place in the signature of a method, or the type asserted in
an initial value. -/
inductive MemberSlot where
  | type (m : Member)
  | method (m : Member) (slot : SignatureSlot) (isConstructor : Bool)
  | initializer (m : Member)

/-- The member with a type put into a place. -/
def MemberSlot.fill : MemberSlot → TypeExpr → Member
  | .type m, t => { m with type := some t }
  | .method m slot isConstructor, t =>
    { m with kind := .method, type := some (.function (slot.fill t) isConstructor) }
  | .initializer m, t => { m with initializer := some (.typed t) }

/-- **Level of a place in a member.** Nothing is printed of an initial value, so that its place has no
level. -/
def MemberSlot.level : MemberSlot → Option Nat
  | .initializer _ => none
  | _ => some 0

/-- **Place in a mapped type.** -/
inductive MappedSlot where
  | constraint (m : MappedType)
  | nameType (m : MappedType)
  | type (m : MappedType)

/-- The mapped type with a type put into a place. -/
def MappedSlot.fill : MappedSlot → TypeExpr → MappedType
  | .constraint m, t => { m with constraint := some t }
  | .nameType m, t => { m with nameType := some t }
  | .type m, t => { m with type := some t }

/-! ### Places in types -/

namespace TypeExpr

/-- Types with a mark that goes to the label of their tuple element. -/
def isMarked : TypeExpr → Bool
  | .optional _ | .rest _ => true
  | _ => false

/-- Function types. -/
def isFunction : TypeExpr → Bool
  | .function _ _ => true
  | _ => false

end TypeExpr

/-- **Place** of a type directly inside a type. -/
inductive Place where
  | hole (before after : List TemplatePart)
  | arg (name : String) (before after : List TypeExpr)
  | importArg (argument : String) (qualifier : Option String) (before after : List TypeExpr)
  | array
  | element (before : List TupleElement) (slot : ElementSlot) (after : List TupleElement)
  | optional
  | rest
  | operand (join : Join) (before after : List TypeExpr)
  | signature (slot : SignatureSlot) (isConstructor : Bool)
  | member (before : List Member) (slot : MemberSlot) (after : List Member)
  | operator (operator : TypeOperator)
  | base (index : TypeExpr)
  | index (base : TypeExpr)
  | check (bound yes no : TypeExpr)
  | bound (check yes no : TypeExpr)
  | yes (check bound no : TypeExpr)
  | no (check bound yes : TypeExpr)
  | mapped (slot : MappedSlot)
  | predicate (asserts : Bool) (param : String)

namespace Place

/-- The type with a type put into a place. -/
def fill : Place → TypeExpr → TypeExpr
  | .hole before after, t => .template (before ++ .type t :: after)
  | .arg name before after, t => .reference name (before ++ t :: after)
  | .importArg argument qualifier before after, t =>
    .imported argument qualifier (before ++ t :: after)
  | .array, t => .array t
  | .element before slot after, t => .tuple (before ++ slot.fill t :: after)
  | .optional, t => .optional t
  | .rest, t => .rest t
  | .operand join before after, t => join.type (before ++ t :: after)
  | .signature slot isConstructor, t => .function (slot.fill t) isConstructor
  | .member before slot after, t => .object (before ++ slot.fill t :: after)
  | .operator op, t => .operator op t
  | .base i, t => .indexed t i
  | .index o, t => .indexed o t
  | .check b y n, t => .conditional t b y n
  | .bound c y n, t => .conditional c t y n
  | .yes c b n, t => .conditional c b t n
  | .no c b y, t => .conditional c b y t
  | .mapped slot, t => .mapped (slot.fill t)
  | .predicate asserts param, t => .predicate asserts param (some t)

/-- **Level of a place**: what binds looser is put in parentheses there. -/
def level : Place → Option Nat
  | .array | .optional | .rest | .base _ => some 4
  | .operator _ => some 3
  | .operand join _ _ => some join.level
  | .check _ _ _ | .bound _ _ _ => some 1
  | .member _ slot _ => slot.level
  | _ => some 0

/-- **Types that stand on their own** in a place: behind a label no optional or rest element, and as the
annotation of a method no function type. -/
def Admits : Place → TypeExpr → Prop
  | .element _ (.type (some _)) _, t => t.isMarked = false
  | .member _ (.type m) _, t => m.kind = .method → t.isFunction = false
  | _, _ => True

end Place

/-! ### Positions -/

/-- **Position** of a type inside a type: the places on the way down, from the outermost one. -/
abbrev Position := List Place

namespace Position

/-- The type with a type put into a position. -/
def fill : Position → TypeExpr → TypeExpr
  | [], t => t
  | place :: rest, t => place.fill (fill rest t)

/-- **Level of a position**: that of its innermost place, unless one on the way is not printed.  A type
on its own has no need of parentheses. -/
def level : Position → Option Nat
  | [] => some 0
  | [place] => place.level
  | place :: next :: rest => place.level.bind fun _ => level (next :: rest)

/-- Each type on the way down stands on its own in its place. -/
def Admits : Position → TypeExpr → Prop
  | [], _ => True
  | place :: rest, t => place.Admits (fill rest t) ∧ Admits rest t

end Position

end PropDocs
