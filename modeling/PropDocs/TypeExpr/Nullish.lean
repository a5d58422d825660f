import PropDocs.TypeExpr.Basic

/-!
# Missing values in types

How the types of the two missing values enter and leave the type of a member, and what an
initializer says about the type of a member without annotation.
-/

namespace PropDocs.TypeExpr

/-- **Without missing values.** Drops them from a union; a union of nothing else stays as it is, and
a single type that is left stands for itself. -/
def dropNullish : TypeExpr → TypeExpr
  | .union types =>
    match types.filter fun t => !t.isNullish with
    | [] => .union types
    | [t] => t
    | kept => .union kept
  | t => t

/-- **With the undefined value**, unless the type has it already or is the type of anything. -/
def orUndefined : TypeExpr → TypeExpr
  | .keyword .any => .keyword .any
  | .keyword .unknown => .keyword .unknown
  | .keyword .undefined => .keyword .undefined
  | .union types => .union (if types.any isUndefined then types else types ++ [undefined])
  | t => .union [t, undefined]

end PropDocs.TypeExpr

namespace PropDocs

/-- **Inferred type** of a member from its initializer.  A readonly member keeps the very value it
starts with; without null checks, missing values say nothing. -/
def Initializer.type (readonly nullChecks : Bool) : Initializer → TypeExpr
  | .boolean b => if readonly then .boolean b else .keyword .boolean
  | .number n => if readonly then .number n else .keyword .number
  | .string s => if readonly then .string s else .keyword .string
  | .template => .keyword .string
  | .bigint digits => if readonly then .bigint digits else .keyword .bigint
  | .null => if nullChecks then .keyword .null else .any
  | .undefined => if nullChecks then .keyword .undefined else .any
  | .array => .array (if nullChecks then .keyword .never else .any)
  | .emptyObject => .object []
  | .new name => .named name
  | .typed t => t
  | .other => .any

/-- **Declared type** of a member: its annotation, or what its initializer says. -/
def Member.declaredType (nullChecks : Bool) (m : Member) : TypeExpr :=
  match m.type, m.initializer with
  | some t, _ => t
  | none, some i => i.type m.readonly nullChecks
  | none, none => .any

/-- **Type of a member** as a reader of it sees it. -/
def Member.readType (nullChecks : Bool) (m : Member) : TypeExpr :=
  if nullChecks then
    if m.optional then (m.declaredType true).orUndefined else m.declaredType true
  else (m.declaredType false).dropNullish

end PropDocs
