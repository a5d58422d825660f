import PropDocs.Source.Parse

/-!
# The grammar of types

From the loosest to the tightest binding: conditional types, function types, unions,
intersections, operators in front, brackets behind, and the types that stand for themselves.  The
flag `noConditional` is set in the operand of `extends`, where a constraint on an inferred type may
be followed by a question mark.
-/

namespace PropDocs.Source

variable (g : Grammar)

/-! ### Names and arguments -/

/-- A name of one or more segments. -/
def entityName : Parse (List String) := do
  let first ← anyWord
  let more ← many (do if ← eat "." then return some (← anyWord) else return none) g.bound
  return first :: more

/-- Type arguments in angle brackets. -/
def typeArgs : Parse (List TypeNode) := do
  expect "<"
  commaUntil g.bound ">" (g.type false)

/-- Type arguments on the same line, when there are any. -/
def typeArgsHere : Parse (List TypeNode) := do
  if (← atPunct "<") && !(← newlineBefore) then typeArgs g else return []

/-- A type behind a colon, when there is one. -/
def annotation : Parse (Option TypeNode) := do
  if ← eat ":" then return some (← g.type false) else return none

/-- One type parameter; modifiers of its variance are skipped. -/
def typeParam : Parse TypeParamNode := do
  let _ ← many (do
    let c ← get
    if c.isWord "const" || (c.isWord "in" || c.isWord "out") && c.next.isName then
      advance
      return some ()
    else return none) g.bound
  let n ← name
  let constraint ← optionalWhen (eatWord "extends") (g.type false)
  let default ← optionalWhen (eat "=") (g.type false)
  return { name := n, constraint, default }

/-- Type parameters, when there are any. -/
def typeParams : Parse (List TypeParamNode) := do
  if ← eat "<" then commaUntil g.bound ">" (typeParam g) else return []

/-! ### Parameters -/

/-- The shape of a parameter; `this` counts as a name. -/
def paramShape : Parse BindingShape := do
  if ← eatWord "this" then return .name "this" else g.pattern

/-- A parameter: marks, shape, annotation and, where `defaults` allows one, an initial value. -/
def param (defaults : Bool) : Parse ParamNode := do
  let isRest ← eat "..."
  let shape ← paramShape g
  let isOptional ← if g.dialect.types then eat "?" else pure false
  let type ← if g.dialect.types then annotation g else pure none
  let initial ← optionalWhen (if defaults then eat "=" else pure false) (g.assign true)
  return { shape, rest := isRest, optional := isOptional, type, initial }

/-- Parameters of a function type, in parentheses. -/
def signatureParams : Parse (List ParamNode) := do
  expect "("
  commaUntil g.bound ")" (param g false)

/-! ### Predicates -/

/-- The type a function returns: a predicate about one of its parameters, or a type. -/
def returnType (noConditional : Bool) : Parse TypeNode := do
  let c ← get
  let n := c.next
  if c.isWord "asserts" && !n.newline && (n.isName || n.isWord "this") then
    -- a parameter named like the mark may be the subject of a plain predicate
    if !(n.isWord "is" && n.next.token != .punct "=>" && !n.next.newline && n.next.isName) then
      advance
      let subject ← anyWord
      if (← atWord "is") && !(← newlineBefore) then
        advance
        return .predicate true subject (some (← g.type noConditional))
      else return .predicate true subject none
  if c.isName && n.isWord "is" && !n.newline then
    let subject ← name
    advance
    return .predicate false subject (some (← g.type noConditional))
  else g.type noConditional

/-- The return type behind a colon, when there is one. -/
def returnAnnotation : Parse (Option TypeNode) := do
  if ← eat ":" then return some (← returnType g false) else return none

/-- A function type from its type parameters on. -/
def functionType (noConditional isConstructor : Bool) : Parse TypeNode := do
  let typeParams ← typeParams g
  let params ← signatureParams g
  expect "=>"
  let returns ← returnType g noConditional
  return .function { typeParams, params, returns := some returns } isConstructor

/-! ### Members of object types -/

/-- The key of a member. -/
def propKey : Parse PropKey := do
  match ← token with
  | .word w => do advance; return .name w
  | .string s => do advance; return .string s
  | .number n => do advance; return .number n
  | .bigint d => do advance; return .bigint d
  | .hashName _ => do advance; return .hashName
  | .punct "[" => do
    advance
    let _ ← g.assign true
    expect "]"
    return .computed
  | _ => failure

/-- A token that may follow a modifier: the start of a member's key. -/
def Cursor.startsKey (c : Cursor) : Bool :=
  match c.token with
  | .word _ | .string _ | .number _ | .bigint _ | .hashName _ => true
  | .punct p => p == "[" || p == "\x7b" || p == "*" || p == "..."
  | _ => false

/-- Moves past a modifier: the given word in front of the start of a key. -/
def eatModifier (w : String) : Parse Bool := do
  let c ← get
  if c.isWord w && c.next.startsKey then
    advance
    return true
  else return false

/-- The end of a member: a comma, a semicolon, or a place where one may be left out. -/
def memberEnd : Parse Unit := do
  if ← eat "," then return () else semicolon

/-- The cursor stands on a bracket, a name and a colon. -/
def atIndexSignature : Parse Bool := do
  let c ← get
  return c.isPunct "[" && c.next.isName && c.next.next.isPunct ":"

/-- An index signature without its end. -/
def indexSignature : Parse TypeMember := do
  expect "["
  let _ ← name
  expect ":"
  let key ← g.type false
  expect "]"
  return .index key (← annotation g)

/-- A signature from its type parameters on, without its end. -/
def signature : Parse SignatureNode := do
  let typeParams ← typeParams g
  let params ← signatureParams g
  let returns ← returnAnnotation g
  return { typeParams, params, returns }

/-- A getter or setter of an object type. -/
def accessorMember (doc : Option String) : Parse TypeMember := do
  if ← eatWord "get" then
    let key ← propKey g
    expect "("
    expect ")"
    let type ← annotation g
    memberEnd
    return .getter key type doc
  else
    expectWord "set"
    let key ← propKey g
    match ← signatureParams g with
    | [] => failure
    | p :: _ =>
      -- a return type is read and dropped
      let _ ← annotation g
      memberEnd
      return .setter key p doc

/-- A property or a method of an object type. -/
def namedMember (isReadonly : Bool) (doc : Option String) : Parse TypeMember := do
  let key ← propKey g
  let isOptional ← eat "?"
  if (← atPunct "(") || (← atPunct "<") then
    let s ← signature g
    memberEnd
    return .method key isOptional s doc
  else
    let type ← annotation g
    memberEnd
    return .property key isOptional isReadonly type doc

/-- **Member** of an object type. -/
def typeMember : Parse TypeMember := do
  let doc ← docHere
  let c ← get
  if c.isPunct "(" || c.isPunct "<" then
    let s ← signature g
    memberEnd
    return .call s
  else if c.isWord "new" && (c.next.isPunct "(" || c.next.isPunct "<") then
    advance
    let s ← signature g
    memberEnd
    return .call s
  else
    let isReadonly ← eatModifier "readonly"
    if ← atIndexSignature then
      let m ← indexSignature g
      memberEnd
      return m
    else if isReadonly then namedMember g true doc
    else orElse (accessorMember g doc) (namedMember g false doc)

/-- The members of an object type behind its opening brace. -/
def typeMembers : Parse (List TypeMember) :=
  manyUntil g.bound "\x7d" (typeMember g)

/-! ### Mapped types -/

/-- The cursor stands on the opening brace of a mapped type. -/
def atMapped : Parse Bool := do
  let c := (← get).next
  if (c.isPunct "+" || c.isPunct "-") then return c.next.isWord "readonly"
  else
    let c := if c.isWord "readonly" then c.next else c
    return c.isPunct "[" && c.next.isName && c.next.next.isWord "in"

/-- A modifier of a mapped type, when there is one. -/
def mappedModifier (eatMark : Parse Bool) : Parse (Option MappedModifier) := do
  if ← eat "+" then
    if ← eatMark then return some .plus else failure
  else if ← eat "-" then
    if ← eatMark then return some .minus else failure
  else if ← eatMark then return some .present
  else return none

/-- A mapped type. -/
def mappedType : Parse TypeNode := do
  expect "\x7b"
  let readonlyMod ← mappedModifier (eatWord "readonly")
  expect "["
  let param ← name
  expectWord "in"
  let constraint ← g.type false
  let nameType ← optionalWhen (eatWord "as") (g.type false)
  expect "]"
  let optionalMod ← mappedModifier (eat "?")
  let type ← annotation g
  if !(← eat ",") then semicolon
  expect "\x7d"
  return .mapped
    { readonly := readonlyMod, param, constraint := some constraint, nameType,
      optional := optionalMod, type }

/-! ### Tuples, templates and imports -/

/-- The label of a tuple element. -/
def tupleLabel : Parse TupleLabel := do
  let isRest ← eat "..."
  let n ← anyWord
  let isOptional ← eat "?"
  expect ":"
  return { name := n, optional := isOptional, rest := isRest }

/-- An element of a tuple. -/
def tupleElement : Parse TupleNode := do
  let label ← attempt tupleLabel
  if ← eat "..." then return { label, type := .rest (← g.type false) }
  else
    let t ← g.type false
    if ← eat "?" then return { label, type := .optional t } else return { label, type := t }

/-- The parts of a template, from the mark in front of a chunk on: the backtick that opens the
template or the brace that closes a hole. -/
def templateParts {α : Type} (hole : Parse α) : (bound : Nat) → Parse (List (String ⊕ α))
  | 0 => failure
  | bound + 1 => do
    match templateChunk false (← get).rest with
    | none => failure
    | some (raw, false, rest) =>
      set (Cursor.scan false false rest)
      return [.inl (String.ofList raw)]
    | some (raw, true, rest) =>
      set (Cursor.scan true false rest)
      let a ← hole
      if ← atPunct "\x7d" then
        return .inl (String.ofList raw) :: .inr a :: (← templateParts hole bound)
      else failure

/-- A template type.  Empty texts are left out. -/
def templateType : Parse TypeNode := do
  let parts ← templateParts (g.type false) g.bound
  return .template (parts.filterMap fun
    | .inl text => if text.isEmpty then none else some (.text text)
    | .inr t => some (.type t))

/-- What follows the word of an imported type: its argument, its qualifier and its type
arguments. -/
def importParts : Parse (String × List String × List TypeNode) := do
  expect "("
  let argument ← stringToken
  if ← eat "," then
    if !(← atPunct ")") then
      let _ ← g.assign true
      let _ ← eat ","
  expect ")"
  let qualifier ← optionalWhen (eat ".") (entityName g)
  let args ← if ← atPunct "<" then typeArgs g else pure []
  return (argument, qualifier.getD [], args)

/-! ### Types that stand for themselves -/

/-- A keyword type, or a reference. -/
def wordType (w : String) : Parse TypeNode := do
  match Keyword.ofText? w with
  | some k =>
    if (← peek).isPunct "." then return .reference (← entityName g) (← typeArgsHere g)
    else
      advance
      return .keyword k
  | none => return .reference (← entityName g) (← typeArgsHere g)

/-- **Primary type.** -/
def primaryType : Parse TypeNode := do
  match ← token with
  | .string s => do advance; return .string s
  | .number n => do advance; return .number n
  | .bigint d => do advance; return .bigint d
  | .backtick => templateType g
  | .punct "-" => do
    advance
    match ← token with
    | .number n => do advance; return .number n.negate
    | .bigint d => do advance; return .bigint ("-" ++ d)
    | _ => failure
  | .punct "(" => do
    advance
    let t ← g.type false
    expect ")"
    return .parenthesized t
  | .punct "[" => do
    advance
    return .tuple (← commaUntil g.bound "]" (tupleElement g))
  | .punct "\x7b" => do
    if ← atMapped then mappedType g
    else
      advance
      return .literal (← typeMembers g)
  | .word "true" => do advance; return .boolean true
  | .word "false" => do advance; return .boolean false
  | .word "this" => do
    advance
    if (← atWord "is") && !(← newlineBefore) then
      advance
      return .predicate false "this" (some (← g.type false))
    else return .thisType
  | .word "typeof" => do
    advance
    if ← eatWord "import" then
      let (argument, qualifier, args) ← importParts g
      return .queryImport argument qualifier args
    else
      let n ← entityName g
      return .query n (← typeArgsHere g)
  | .word "import" => do
    advance
    let (argument, qualifier, args) ← importParts g
    return .imported argument qualifier args
  | .word w =>
    if w == "void" || w == "null" || !isReserved w then wordType g w else failure
  | _ => failure

/-! ### Operators -/

/-- What a pair of brackets behind a type makes of it. -/
inductive Bracket where
  | array
  | index (index : TypeNode)

/-- A type with brackets behind it, on the same line. -/
def bracketType : Parse TypeNode := do
  let base ← primaryType g
  let brackets ← many (do
    if (← newlineBefore) || !(← atPunct "[") then return none
    else
      advance
      if ← eat "]" then return some Bracket.array
      else
        let t ← g.type false
        expect "]"
        return some (Bracket.index t)) g.bound
  return brackets.foldl (fun t b =>
    match b with
    | .array => .array t
    | .index i => .indexed t i) base

/-- The constraint of an inferred type.  Outside of the operand of `extends`, a question mark behind
it shows that it was the start of a conditional type. -/
def inferConstraint (noConditional : Bool) : Parse TypeNode := do
  expectWord "extends"
  let t ← g.type true
  if !noConditional && (← atPunct "?") then failure else return t

/-- A type operator at the cursor. -/
def typeOperator : Parse (Option TypeOperator) := do
  if ← eatWord "keyof" then return some .keyof
  else if ← eatWord "unique" then return some .unique
  else if ← eatWord "readonly" then return some .readonly
  else return none

/-- A type with operators in front. -/
def operatorType (noConditional : Bool) : Parse TypeNode := do
  let ops ← many typeOperator g.bound
  let base ←
    if ← eatWord "infer" then
      let n ← name
      let constraint ← attempt (inferConstraint g noConditional)
      pure (TypeNode.infer n constraint)
    else bracketType g
  return ops.foldr (fun op t => .operator op t) base

/-- One type, or several with an operator between them; the operator may also stand in front. -/
def joined (op : String) (make : List TypeNode → TypeNode) (item : Parse TypeNode) :
    Parse TypeNode := do
  let _ ← eat op
  match ← separated g.bound op item with
  | [t] => return t
  | ts => return make ts

/-- A union of intersections. -/
def unionType (noConditional : Bool) : Parse TypeNode :=
  joined g "|" .union (joined g "&" .intersection (operatorType g noConditional))

/-- A type that is no conditional type. -/
def simpleType (noConditional : Bool) : Parse TypeNode := do
  let c ← get
  if c.isPunct "<" then functionType g noConditional false
  else if c.isWord "new" then
    advance
    functionType g noConditional true
  else if c.isWord "abstract" && c.next.isWord "new" then
    advance
    advance
    functionType g noConditional true
  else if c.isPunct "(" then
    orElse (functionType g noConditional false) (unionType g noConditional)
  else unionType g noConditional

/-- **Type.** -/
def typeRule (noConditional : Bool) : Parse TypeNode := do
  let check ← simpleType g noConditional
  if noConditional || (← newlineBefore) || !(← atWord "extends") then return check
  else
    advance
    let bound ← g.type true
    expect "?"
    let yes ← g.type false
    expect ":"
    let no ← g.type false
    return .conditional check bound yes no

end PropDocs.Source
