import PropDocs.Source.Types

/-!
# The grammar of functions and classes

Bodies of functions are read and dropped.  Members of classes keep what documents them: key,
marks, annotation, initial value and the documentation comment in front of the first decorator,
modifier or key.
-/

namespace PropDocs.Source

variable (g : Grammar)

/-! ### Functions -/

/-- Statements in braces. -/
def block : Parse Unit := do
  expect "\x7b"
  let _ ← manyUntil g.bound "\x7d" g.statement
  return ()

/-- Arguments of a call, in parentheses. -/
def arguments : Parse Unit := do
  expect "("
  let _ ← commaUntil g.bound ")" (do let _ ← eat "..."; g.assign true)
  return ()

/-- A decorator behind its mark: an expression in parentheses, or a dotted name with or without a
call. -/
def decorator : Parse Unit := do
  expect "@"
  if ← eat "(" then
    let _ ← separated g.bound "," (g.assign true)
    expect ")"
  else
    let _ ← anyWord
    let _ ← many (do
      if ← eat "." then
        match ← token with
        | .word _ | .hashName _ => do advance; return some ()
        | _ => failure
      else return none) g.bound
    if g.dialect.types && (← atPunct "<") then
      let _ ← attempt (do let _ ← typeArgs g; if ← atPunct "(" then return () else failure)
    if ← atPunct "(" then arguments g

/-- Decorators; the result is the documentation comment in front of the first one, and whether
there is any. -/
def decorators : Parse (Bool × Option String) := do
  let doc ← docHere
  let ds ← many (do if ← atPunct "@" then decorator g; return some () else return none) g.bound
  return (!ds.isEmpty, if ds.isEmpty then none else doc)

/-- Parameters of a function with a body, in parentheses. -/
def functionParams : Parse (List ParamNode) := do
  expect "("
  commaUntil g.bound ")" (do let _ ← decorators g; param g true)

/-- Type parameters, where the dialect has types. -/
def typeParamsHere : Parse (List TypeParamNode) :=
  if g.dialect.types then typeParams g else pure []

/-- A function from its type parameters up to its body. -/
def functionHead : Parse SignatureNode := do
  let typeParams ← typeParamsHere g
  let params ← functionParams g
  let returns ← if g.dialect.types then returnAnnotation g else pure none
  return { typeParams, params, returns }

/-- The body of a function; where the dialect has types it may be missing. -/
def bodyOrEnd : Parse Unit := do
  if ← atPunct "\x7b" then block g
  else if g.dialect.types then semicolon
  else failure

/-! ### Members of classes -/

/-- The cursor stands where a method's parameters start. -/
def atMethod : Parse Bool := do
  return (← atPunct "(") || g.dialect.types && (← atPunct "<")

/-- The cursor stands where a property's key has just ended. -/
def atProperty (asi : Bool) : Parse Bool := do
  if g.dialect.types && ((← atPunct "!") || (← atPunct ":")) then return true
  else if (← atPunct "=") || (← atPunct "\x7d") then return true
  else if asi then atStatementEnd
  else atPunct ";"

/-- **Marks** of a class member, collected in front of its key. -/
structure MemberMarks where
  isStatic : Bool := false
  readonly : Bool := false
  doc : Option String := none

/-- A property from behind its key. -/
def classProperty (marks : MemberMarks) (key : PropKey) (isOptional : Bool) :
    Parse ClassMember := do
  if g.dialect.types then let _ ← eat "!"
  let type ← if g.dialect.types then annotation g else pure none
  let value ← optionalWhen (eat "=") (g.assign true)
  semicolon
  return .property marks.isStatic key isOptional marks.readonly type value marks.doc

/-- A method, getter or setter from behind its key. -/
def classMethod (marks : MemberMarks) (key : PropKey) (kind : MethodKind) (isOptional : Bool) :
    Parse ClassMember := do
  let head ← functionHead g
  bodyOrEnd g
  return .method marks.isStatic key kind isOptional head marks.doc

/-- An accessibility or another modifier of a constructor parameter. -/
def paramModifier : Parse (Option String) := do
  let c ← get
  match c.token with
  | .word w =>
    if ["public", "private", "protected", "readonly", "override"].contains w then
      match c.next.token with
      | .word _ => do advance; return some w
      | .punct p => if p == "\x7b" || p == "[" then do advance; return some w else return none
      | _ => return none
    else return none
  | _ => return none

/-- A parameter of a constructor.  A pattern cannot declare a property unless it has an initial
value. -/
def constructorParam : Parse ConstructorParam := do
  let (decorated, decoratorDoc) ← decorators g
  let hereDoc ← docHere
  let modifiers ← if g.dialect.types then many paramModifier g.bound else pure []
  let p ← param g true
  let isProperty := !modifiers.isEmpty
  let isPattern := match p.shape with
    | .name _ => false
    | _ => true
  if isProperty && (p.rest || isPattern && p.initial.isNone) then failure
  else
    return { param := p
             isProperty
             readonly := modifiers.contains "readonly"
             doc := if decorated then decoratorDoc else hereDoc }

/-- A constructor from behind its key. -/
def constructorRest : Parse ClassMember := do
  let _ ← typeParamsHere g
  expect "("
  let params ← commaUntil g.bound ")" (constructorParam g)
  if g.dialect.types then let _ ← annotation g
  bodyOrEnd g
  return .constructor params

/-- A key that makes a method a constructor. -/
def PropKey.isConstructor : PropKey → Bool
  | .name n | .string n => n == "constructor"
  | _ => false

/-- The key that a word would be on its own: the word has just been read. -/
def wordAsKey (marks : MemberMarks) (w : String) (asi : Bool) : Parse (Option ClassMember) := do
  if ← atMethod g then return some (← classMethod g marks (.name w) .method false)
  else if ← atProperty g asi then return some (← classProperty g marks (.name w) false)
  else return none

/-- A member from its key on. -/
def keyedMember (marks : MemberMarks) : Parse ClassMember := do
  if ← eat "*" then
    let key ← propKey g
    classMethod g marks key .method false
  else
    let key ← propKey g
    let isOptional ← if g.dialect.types then eat "?" else pure false
    if ← atMethod g then
      if key.isConstructor && !marks.isStatic then constructorRest g
      else classMethod g marks key .method isOptional
    else
      let accessor := key == .name "get" || key == .name "set"
      let generatorBelow := (← newlineBefore) && (← atPunct "*")
      let isAccessor ← if accessor && !generatorBelow then do pure !(← atProperty g false)
        else pure false
      if !isAccessor && (← atProperty g true) then classProperty g marks key isOptional
      else if key == .name "async" && !(← newlineBefore) then
        let _ ← eat "*"
        let key ← propKey g
        let isOptional ← if g.dialect.types then eat "?" else pure false
        classMethod g marks key .method isOptional
      else if isAccessor then
        let kind := if key == .name "get" then MethodKind.getter else MethodKind.setter
        let key ← propKey g
        classMethod g marks key kind false
      else failure

/-- An accessor field, which declares no member. -/
def accessorField : Parse ClassMember := do
  expectWord "accessor"
  if ← newlineBefore then failure
  let key ← propKey g
  let _ ← classProperty g {} key false
  return .other

/-- The modifiers that may follow each other in front of a key. -/
def memberModifier : Parse (Option String) := do
  let c ← get
  if c.isWord "static" && c.next.isPunct "\x7b" then return none
  else
    if ← eatModifier "abstract" then return some "abstract"
    else if ← eatModifier "readonly" then return some "readonly"
    else if ← eatModifier "override" then return some "override"
    else if ← eatModifier "static" then return some "static"
    else return none

/-- A member behind its accessibility and behind `static`. -/
def memberRest (marks : MemberMarks) (plain : Bool) : Parse ClassMember := do
  let modifiers ← if g.dialect.types then many memberModifier g.bound else pure []
  let marks :=
    { marks with
      isStatic := marks.isStatic || modifiers.contains "static"
      readonly := modifiers.contains "readonly" }
  if marks.isStatic && (← atPunct "\x7b") then
    block g
    return .other
  else
    match ← attempt (accessorField g) with
    | some m => return m
    | none =>
      let index := g.dialect.types && plain && !modifiers.contains "abstract" &&
        !modifiers.contains "override" && (← atIndexSignature)
      if index then
        let _ ← indexSignature g
        memberEnd
        return .other
      else if marks.readonly && ((← atPunct "!") || (← atPunct ":")) then
        classProperty g { marks with readonly := false } (.name "readonly") false
      else keyedMember g marks

/-- A member behind its accessibility: `static` as a modifier, or as the key itself. -/
def staticMember (marks : MemberMarks) (plain : Bool) : Parse ClassMember := do
  if ← eatWord "static" then
    match ← wordAsKey g marks "static" false with
    | some m => return m
    | none => memberRest g { marks with isStatic := true } plain
  else memberRest g marks plain

/-- An accessibility at the cursor. -/
def accessibility : Parse Bool := do
  if ← eatModifier "public" then return true
  else if ← eatModifier "protected" then return true
  else eatModifier "private"

/-- A member behind its decorators, where the dialect has types. -/
def typedMember (marks : MemberMarks) : Parse ClassMember := do
  let declareFirst ← eatWord "declare"
  let accessible ← accessibility
  let declared ← if declareFirst then pure true else eatWord "declare"
  if declared then
    match ← wordAsKey g marks "declare" true with
    | some m => return m
    | none => staticMember g marks !accessible
  else staticMember g marks !accessible

/-- **Member** of a class. -/
def classMember : Parse ClassMember := do
  let (decorated, decoratorDoc) ← decorators g
  let hereDoc ← docHere
  let marks : MemberMarks := { doc := if decorated then decoratorDoc else hereDoc }
  if g.dialect.types then typedMember g marks else staticMember g marks true

/-- The members of a class behind its opening brace. -/
def classMembers : Parse (List ClassMember) := do
  let ms ← many (do
    if ← eat "\x7d" then return none
    else if ← eat ";" then return some none
    else return some (some (← classMember g))) g.bound
  return ms.filterMap id

/-! ### Classes -/

/-- A base with its type arguments. -/
def heritage : Parse Heritage := do
  let base ← g.lhs
  let args ← if g.dialect.types && (← atPunct "<") then typeArgs g else pure []
  return { base, args }

/-- The name of a class, when it has one. -/
def className : Parse (Option String) := do
  let c ← get
  if c.isName && !(c.isWord "implements" && g.dialect.types) then return some (← name)
  else return none

/-- A class behind its name. -/
def classRest : Parse ClassNode := do
  let _ ← typeParamsHere g
  let base ← optionalWhen (eatWord "extends") (heritage g)
  if g.dialect.types then
    if ← eatWord "implements" then
      let _ ← separated g.bound "," (heritage g)
  expect "\x7b"
  let members ← classMembers g
  return { base, members }

end PropDocs.Source
