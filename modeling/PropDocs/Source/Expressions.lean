import PropDocs.Source.Classes

/-!
# The grammar of expressions

Expressions are read so that the text around them can be read.  What is kept of them is the form
that an initial value or the name of a base class needs; every operator and call makes an
expression `Expr.other`, with the exception of type assertions, which bind like comparisons.
-/

namespace PropDocs.Source

open Text

variable (g : Grammar)

/-- Expressions with commas between them. -/
def sequence (allowIn : Bool) : Parse Expr := do
  match ← separated g.bound "," (g.assign allowIn) with
  | [e] => return e
  | _ => return .other

/-! ### Patterns -/

/-- The initial value of a part of a pattern, when there is one. -/
def patternDefault : Parse Unit := do
  if ← eat "=" then
    let _ ← g.assign true

/-- A part of an array pattern; it may be missing. -/
def arrayPatternPart : Parse Unit := do
  if (← atPunct ",") || (← atPunct "]") then return ()
  else
    let _ ← eat "..."
    let _ ← g.pattern
    patternDefault g

/-- A part of an object pattern. -/
def objectPatternPart : Parse Unit := do
  if ← eat "..." then
    let _ ← g.pattern
  else
    let key ← propKey g
    if ← eat ":" then
      let _ ← g.pattern
      patternDefault g
    else
      match key with
      | .name n => if isReserved n then failure else patternDefault g
      | _ => failure

/-- **Binding pattern** or name. -/
def patternRule : Parse BindingShape := do
  if ← eat "[" then
    let _ ← commaUntil g.bound "]" (arrayPatternPart g)
    return .arrayPattern
  else if ← eat "\x7b" then
    let _ ← commaUntil g.bound "\x7d" (objectPatternPart g)
    return .objectPattern
  else return .name (← name)

/-! ### Objects and arrays -/

/-- A function from its type parameters on, with its body. -/
def methodRest : Parse Unit := do
  let _ ← functionHead g
  block g

/-- A word in front of the key of an accessor or an asynchronous method. -/
def eatMethodWord : Parse Unit := do
  let c ← get
  if c.isWord "get" || c.isWord "set" || c.isWord "async" then
    let n := c.next
    if n.startsKey && !n.isPunct "\x7b" && !n.isPunct "..." then advance

/-- A part of an object. -/
def objectPart : Parse Unit := do
  if ← eat "..." then
    let _ ← g.assign true
  else
    eatMethodWord
    let _ ← eat "*"
    let key ← propKey g
    if ← atMethod g then methodRest g
    else if (← atPunct ":") || (← atPunct "=") then
      advance
      let _ ← g.assign true
    else
      match key with
      | .name n => if isReserved n then failure else return ()
      | _ => failure

/-- A part of an array; it may be missing. -/
def arrayPart : Parse Unit := do
  if (← atPunct ",") || (← atPunct "]") then return ()
  else
    let _ ← eat "..."
    let _ ← g.assign true

/-! ### Functions and classes as expressions -/

/-- A function expression from the word on. -/
def functionExpr : Parse Expr := do
  expectWord "function"
  let _ ← eat "*"
  if ← atName then advance
  methodRest g
  return .other

/-- A class expression from the word on. -/
def classExpr : Parse Expr := do
  expectWord "class"
  let _ ← className g
  let _ ← classRest g
  return .other

/-- The body of an arrow function. -/
def arrowBody (allowIn : Bool) : Parse Expr := do
  if ← atPunct "\x7b" then block g
  else
    let _ ← g.assign allowIn
  return .other

/-- An arrow on the line of the parameters. -/
def arrow : Parse Unit := do
  if ← newlineBefore then failure else expect "=>"

/-- The parameters of an arrow function, up to and with the arrow. -/
def arrowHead : Parse Unit := do
  let _ ← functionHead g
  arrow

/-- An arrow function with a single name as its parameter. -/
def arrowOfName : Parse Unit := do
  let _ ← name
  arrow

/-- **Arrow function**, when there is one at the cursor. -/
def arrowFunction (allowIn : Bool) : Parse (Option Expr) := do
  let c ← get
  let n := c.next
  let isAsync := c.isWord "async" && !n.newline && (n.isName || n.isPunct "(" || n.isPunct "<")
  let asyncHead ←
    if isAsync then attempt (do advance; orElse arrowOfName (arrowHead g)) else pure none
  let head ← match asyncHead with
    | some h => pure (some h)
    | none =>
      if c.isName && n.isPunct "=>" && !n.newline then attempt arrowOfName
      else if c.isPunct "(" || (g.dialect.types && c.isPunct "<") then attempt (arrowHead g)
      else pure none
  match head with
  | some _ => return some (← arrowBody g allowIn)
  | none => return none

/-! ### Primary expressions -/

/-- A regular expression at the cursor. -/
def regex : Parse Expr := do
  match skipRegex false false ((← get).start.drop 1) with
  | some rest =>
    -- like a string, a regular expression takes the comments behind it
    set (Cursor.scan true false rest)
    return .other
  | none => failure

/-- A template at the cursor. -/
def template : Parse Expr := do
  let _ ← templateParts (sequence g true) g.bound
  return .template

/-- Markup at the cursor. -/
def markupExpr : Parse Expr := do
  match g.markup (← get).rest with
  | some rest =>
    set (Cursor.scan false false rest)
    return .other
  | none => failure

/-- An import call, or the properties of the module. -/
def importExpr : Parse Expr := do
  expectWord "import"
  if ← eat "." then
    let _ ← anyWord
    if ← atPunct "(" then arguments g
  else arguments g
  return .other

/-- An expression that starts with a word. -/
def wordExpr (w : String) : Parse Expr := do
  match w with
  | "null" => do advance; return .null
  | "true" => do advance; return .boolean true
  | "false" => do advance; return .boolean false
  | "this" | "super" => do advance; return .other
  | "function" => functionExpr g
  | "class" => classExpr g
  | "import" => importExpr g
  | "async" => do
    let n ← peek
    if n.isWord "function" && !n.newline then
      advance
      functionExpr g
    else
      advance
      return .name w
  | _ => return .name (← name)

/-- **Primary expression.** -/
def primary : Parse Expr := do
  match ← token with
  | .number n => do advance; return .number n
  | .string s => do advance; return .string s
  | .bigint d => do advance; return .bigint d
  | .backtick => template g
  | .hashName _ => do
    advance
    if ← atWord "in" then return .other else failure
  | .punct "(" => do
    advance
    let e ← sequence g true
    expect ")"
    return .parenthesized e
  | .punct "[" => do
    advance
    let _ ← commaUntil g.bound "]" (arrayPart g)
    return .array
  | .punct "\x7b" => do
    advance
    let parts ← commaUntil g.bound "\x7d" (objectPart g)
    return .object parts.isEmpty
  | .punct "/" | .punct "/=" => regex
  | .punct "<" => if g.dialect.markup then markupExpr g else failure
  | .punct "@" => do
    let _ ← decorators g
    classExpr g
  | .word w => wordExpr g w
  | _ => failure

/-! ### Calls and members -/

/-- Punctuators that may follow an expression with type arguments. -/
def closesInstantiation : List String :=
  [")", "]", "\x7d", ":", ";", ",", "?", "?.", "==", "===", "!=", "!==", "&&", "||", "??", "^", "&",
    "|", "="]

/-- Type arguments behind an expression, which a call or the end of the expression follows. -/
def callTypeArgs : Parse Unit := do
  let _ ← typeArgs g
  let c ← get
  match c.token with
  | .punct "(" | .backtick | .eof => return ()
  | .punct p => if c.newline || closesInstantiation.contains p then return () else failure
  | _ => if c.newline then return () else failure

/-- What follows a question mark and a dot. -/
def optionalSuffix : Parse Unit := do
  if ← atPunct "(" then arguments g
  else if ← eat "[" then
    let _ ← sequence g true
    expect "]"
  else
    match ← token with
    | .word _ | .hashName _ => advance
    | .backtick => let _ ← template g
    | .punct "<" => do
      let _ ← typeArgs g
      arguments g
    | _ => failure

/-- **Suffix.** What one suffix makes of an expression; `none` when there is no further one. -/
def suffix (calls instances : Bool) (e : Expr) : Parse (Option Expr) := do
  let c ← get
  match c.token with
  | .punct "." => do
    advance
    match ← token with
    | .word w => do advance; return some (.member e w)
    | .hashName _ => do advance; return some .other
    | _ => failure
  | .punct "?." =>
    if calls then do
      advance
      optionalSuffix g
      return some .other
    else failure
  | .punct "[" => do
    advance
    let _ ← sequence g true
    expect "]"
    return some .other
  | .punct "(" =>
    if calls then do
      arguments g
      return some .other
    else return none
  | .backtick => do
    let _ ← template g
    return some .other
  | .punct "!" =>
    if g.dialect.types && !c.newline then do
      advance
      return some .other
    else return none
  | .punct "<" =>
    if g.dialect.types && instances then
      match ← attempt (callTypeArgs g) with
      | some _ => return some .other
      | none => return none
    else if g.dialect.types && calls then
      -- in front of a call the type arguments belong to the call
      match ← attempt (do let _ ← typeArgs g; arguments g) with
      | some _ => return some .other
      | none => return none
    else return none
  | _ => return none

/-- All suffixes of an expression. -/
def suffixes (calls instances : Bool) : (bound : Nat) → Expr → Parse Expr
  | 0, _ => failure
  | bound + 1, e => do
    match ← suffix g calls instances e with
    | some e => suffixes calls instances bound e
    | none => return e

/-- A new object: its class, type arguments and arguments. -/
def newExpr : (bound : Nat) → Parse Expr
  | 0 => failure
  | bound + 1 => do
    expectWord "new"
    if ← eat "." then
      let _ ← anyWord
      return .other
    else
      let head ← if ← atWord "new" then newExpr bound else primary g
      let callee ← suffixes g false false g.bound head
      if g.dialect.types && (← atPunct "<") then
        let _ ← attempt (typeArgs g)
      if ← atPunct "(" then arguments g
      return .new callee

/-- The head of a chain of suffixes. -/
def chainHead : Parse Expr := do
  if ← atWord "new" then newExpr g g.bound else primary g

/-- **Left-hand side**: an expression with its calls, type arguments of its own left over. -/
def lhsRule : Parse Expr := do
  suffixes g true false g.bound (← chainHead g)

/-- An expression with all its suffixes. -/
def chain : Parse Expr := do
  suffixes g true true g.bound (← chainHead g)

/-! ### Operators -/

/-- An operator in front of its operand. -/
def frontOperator : Parse (Option String) := do
  match ← token with
  | .punct p =>
    if ["+", "-", "!", "~", "++", "--"].contains p then do advance; return some p
    else return none
  | .word w =>
    if ["typeof", "void", "delete", "await"].contains w then do advance; return some w
    else return none
  | _ => return none

/-- A type in angle brackets in front of an expression; a constant assertion asserts no type. -/
def angleAssertion : Parse (Option TypeNode) := do
  expect "<"
  let t ← if ← eatWord "const" then pure none else some <$> g.type false
  expect ">"
  return t

/-- What stands in front of an operand: an operator, or an assertion. -/
def frontMark : Parse (Option (String ⊕ Option TypeNode)) := do
  match ← frontOperator with
  | some op => return some (.inl op)
  | none =>
    if g.dialect.types && !g.dialect.markup && (← atPunct "<") then
      return some (.inr (← angleAssertion g))
    else return none

/-- An operand with the operators in front of it and behind it. -/
def unary : Parse Expr := do
  let marks ← many (frontMark g) g.bound
  let e ← chain g
  let e ←
    if ((← atPunct "++") || (← atPunct "--")) && !(← newlineBefore) then do
      advance
      pure Expr.other
    else pure e
  return marks.foldr (fun m e =>
    match m with
    | .inl op => .unary op e
    | .inr (some t) => .typed e t
    | .inr none => .other) e

/-- **Operator** at the cursor: its binding strength and the characters it takes beyond the current
token. -/
structure Joiner where
  strength : Nat
  extra : Nat := 0

/-- The strength of the punctuators that join two operands. -/
def joinerStrength? : String → Option Nat
  | "??" | "||" => some 1
  | "&&" => some 2
  | "|" => some 3
  | "^" => some 4
  | "&" => some 5
  | "==" | "!=" | "===" | "!==" => some 6
  | "+" | "-" => some 9
  | "*" | "/" | "%" => some 10
  | "**" => some 11
  | _ => none

/-- The operator that an angle bracket starts, from the characters behind it.  One that ends with
an equals sign and is no comparison assigns. -/
def angleJoiner (c : Char) (rest : List Char) : Option Joiner :=
  match c, rest with
  | '<', '<' :: '=' :: _ => none
  | '<', '<' :: _ => some { strength := 8, extra := 1 }
  | '<', '=' :: _ => some { strength := 7, extra := 1 }
  | '<', _ => some { strength := 7 }
  | _, '>' :: '>' :: '=' :: _ => none
  | _, '>' :: '>' :: _ => some { strength := 8, extra := 2 }
  | _, '>' :: '=' :: _ => none
  | _, '>' :: _ => some { strength := 8, extra := 1 }
  | _, '=' :: _ => some { strength := 7, extra := 1 }
  | _, _ => some { strength := 7 }

/-- The operator at a cursor. -/
def Cursor.joiner? (c : Cursor) (allowIn : Bool) : Option Joiner :=
  match c.token with
  | .punct "<" => angleJoiner '<' c.rest
  | .punct ">" => angleJoiner '>' c.rest
  | .punct p => (joinerStrength? p).map fun strength => { strength }
  | .word "instanceof" => some { strength := 7 }
  | .word "in" => if allowIn then some { strength := 7 } else none
  | _ => none

/-- Moves past an operator. -/
def skipJoiner (op : Joiner) : Parse Unit := fun c =>
  some ((), Cursor.scan false false (c.rest.drop op.extra))

/-- A type assertion behind an expression; a constant assertion asserts no type. -/
def assertion (e : Expr) : Parse (Option Expr) := do
  let c ← get
  if !g.dialect.types || c.newline then return none
  else if c.isWord "as" then
    advance
    if ← eatWord "const" then return some .other
    else return some (.typed e (← g.type false))
  else if c.isWord "satisfies" then
    advance
    return some (.satisfies e (← g.type false))
  else return none

/-- **Operators behind an operand.** Those that bind at least as tightly as `min` are read; each
takes the tighter operators behind its second operand. -/
def joinTail (allowIn : Bool) : (bound min : Nat) → Expr → Parse Expr
  | 0, _, _ => failure
  | bound + 1, min, e => do
    match ← (if min ≤ 7 then assertion g e else pure none) with
    | some e => joinTail allowIn bound min e
    | none =>
      match (← get).joiner? allowIn with
      | none => return e
      | some op =>
        if op.strength < min then return e
        else
          skipJoiner op
          let right ← unary g
          -- the power operator groups to the right
          let _ ← joinTail allowIn bound (if op.strength = 11 then 11 else op.strength + 1) right
          joinTail allowIn bound min .other

/-- An expression of operands and operators between them. -/
def joinExpr (allowIn : Bool) : Parse Expr := do
  joinTail g allowIn g.bound 1 (← unary g)

/-! ### Assignments -/

/-- The punctuators that assign. -/
def assignOperators : List String :=
  ["=", "+=", "-=", "*=", "/=", "%=", "**=", "&=", "|=", "^=", "&&=", "||=", "??="]

/-- The number of characters an assignment operator at a cursor takes beyond its token. -/
def Cursor.assign? (c : Cursor) : Option Nat :=
  match c.token, c.rest with
  | .punct "<", '<' :: '=' :: _ => some 2
  | .punct ">", '>' :: '>' :: '=' :: _ => some 3
  | .punct ">", '>' :: '=' :: _ => some 2
  | .punct p, _ => if assignOperators.contains p then some 0 else none
  | _, _ => none

/-- A yielded value. -/
def yieldExpr (allowIn : Bool) : Parse Expr := do
  expectWord "yield"
  let c ← get
  let ends := c.newline || c.token == .eof ||
    [")", "]", "\x7d", ",", ";", ":"].any fun p => c.isPunct p
  if !ends then
    let _ ← eat "*"
    let _ ← g.assign allowIn
  return .other

/-- The first branch of a conditional expression with the colon behind it.  A colon behind
parentheses that would start the return type of an arrow function, but leaves no colon for the
conditional, is the colon of the conditional. -/
def firstBranch : Parse Unit :=
  orElse (do let _ ← g.assign true; expect ":") (do let _ ← joinExpr g true; expect ":")

/-- **Assignment expression.** -/
def assignRule (allowIn : Bool) : Parse Expr := do
  match ← arrowFunction g allowIn with
  | some e => return e
  | none =>
    if ← atWord "yield" then yieldExpr g allowIn
    else
      let e ← joinExpr g allowIn
      let c ← get
      if c.isPunct "?" then
        advance
        firstBranch g
        let _ ← g.assign allowIn
        return .other
      else
        match c.assign? with
        | some extra =>
          set (Cursor.scan false false (c.rest.drop extra))
          let _ ← g.assign allowIn
          return .other
        | none => return e

/-! ### Markup -/

/-- The characters in front that are no trivia. -/
def afterTrivia (cs : List Char) : List Char :=
  ((skipTrivia false .between { newline := false } cs).map Prod.snd).getD []

/-- A character of a markup name. -/
def isMarkupName (c : Char) : Bool :=
  isNamePart c || c == '-' || c == ':' || c == '.'

/-- An expression in braces, from behind the opening one; it may be empty or spread.  The result is
the characters behind the closing brace. -/
def markupHole (cs : List Char) : Option (List Char) :=
  let c := Cursor.scan true false cs
  let c := if c.isPunct "..." then c.next else c
  if c.isPunct "\x7d" then some c.rest
  else
    match sequence g true c with
    | some (_, c) => if c.isPunct "\x7d" then some c.rest else none
    | none => none

/-- The value of an attribute. -/
def markupValue (cs : List Char) : Option (List Char) :=
  match afterTrivia cs with
  | '{' :: cs => markupHole g cs
  | '<' :: cs => g.markup cs
  | q :: cs =>
    if q = '"' ∨ q = '\'' then
      match cs.dropWhile (· != q) with
      | _ :: rest => some rest
      | [] => none
    else none
  | [] => none

/-- The attributes of an element.  The result is the characters from the mark that ends its tag. -/
def markupAttributes : (bound : Nat) → List Char → Option (List Char)
  | 0, _ => none
  | bound + 1, cs =>
    match afterTrivia cs with
    | '{' :: cs => do
      let cs ← markupHole g cs
      markupAttributes bound cs
    | '/' :: cs => some ('/' :: cs)
    | '>' :: cs => some ('>' :: cs)
    | cs =>
      let n := cs.takeWhile isMarkupName
      if n.isEmpty then none
      else
        match afterTrivia (cs.dropWhile isMarkupName) with
        | '=' :: cs => do
          let cs ← markupValue g cs
          markupAttributes bound cs
        | cs => markupAttributes bound cs

/-- The children of an element up to its closing tag, and the characters behind that tag. -/
def markupChildren (tag : List Char) : (bound : Nat) → List Char → Option (List Char)
  | 0, _ => none
  | bound + 1, cs =>
    match cs.dropWhile fun c => c != '<' && c != '{' with
    | '{' :: cs => do
      let cs ← markupHole g cs
      markupChildren tag bound cs
    | '<' :: cs =>
      match afterTrivia cs with
      | '/' :: cs =>
        let cs := afterTrivia cs
        let closing := cs.takeWhile isMarkupName
        match afterTrivia (cs.dropWhile isMarkupName) with
        | '>' :: rest => if closing = tag then some rest else none
        | _ => none
      | cs => do
        let cs ← g.markup cs
        markupChildren tag bound cs
    | _ => none

/-- Type arguments of a markup element, when there are any. -/
def markupTypeArgs (cs : List Char) : Option (List Char) :=
  match afterTrivia cs with
  | '<' :: rest =>
    -- the bracket that closes the arguments is the token in front of the cursor's text
    let c := Cursor.scan false false rest
    match separated g.bound "," (g.type false) c with
    | some (_, c) => if c.isPunct ">" then some c.rest else none
    | none => none
  | cs => some cs

/-- **Markup** behind its opening bracket. -/
def markupRule (cs : List Char) : Option (List Char) := do
  let cs := afterTrivia cs
  let tag := cs.takeWhile isMarkupName
  let cs := cs.dropWhile isMarkupName
  let cs ← if tag.isEmpty then some cs else markupTypeArgs g cs
  let cs ← if tag.isEmpty then some (afterTrivia cs) else markupAttributes g g.bound cs
  match cs with
  | '>' :: cs => markupChildren g tag g.bound cs
  | '/' :: cs =>
    match afterTrivia cs with
    | '>' :: cs => if tag.isEmpty then none else some cs
    | _ => none
  | _ => none

end PropDocs.Source
