import PropDocs.Source.Expressions

/-!
# The grammar of statements and modules

Declarations and the import and export forms of a module become tree nodes; all other statements
are read and dropped.  A declaration is documented by the comment in front of its first token, a
class also by the one in front of its first decorator, and an exported declaration, failing these,
by the one in front of `export`.
-/

namespace PropDocs.Source

variable (g : Grammar)

/-! ### Declarations of types -/

/-- An interface behind its word. -/
def interfaceRest (doc : Option String) : Parse DeclNode := do
  let n ← name
  let _ ← typeParams g
  let bases ← optionalWhen (eatWord "extends") (separated g.bound "," (heritage g))
  expect "\x7b"
  let members ← typeMembers g
  return .interface n doc (bases.getD []) members

/-- A type alias behind its word. -/
def aliasRest (doc : Option String) : Parse DeclNode := do
  let n ← name
  let _ ← typeParams g
  expect "="
  let t ← g.type false
  semicolon
  return .typeAlias n doc t

/-- An enumeration behind its word. -/
def enumRest (doc : Option String) : Parse DeclNode := do
  let n ← name
  expect "\x7b"
  let _ ← commaUntil g.bound "\x7d" (do
    let _ ← propKey g
    if ← eat "=" then
      let _ ← g.assign true)
  return .enum n doc

/-- The body of a namespace; where there is none, the statement ends. -/
def namespaceBody : Parse Unit := do
  if ← eat "\x7b" then
    let _ ← manyUntil g.bound "\x7d" g.item
  else semicolon

/-- A namespace behind its word, named by a dotted name or a string. -/
def namespaceRest (doc : Option String) : Parse DeclNode := do
  match ← token with
  | .string s => do
    advance
    namespaceBody g
    return .namespaceDecl s doc
  | _ => do
    let n ← name
    let _ ← many (do if ← eat "." then return some (← anyWord) else return none) g.bound
    expect "\x7b"
    let _ ← manyUntil g.bound "\x7d" g.item
    return .namespaceDecl n doc

/-! ### Declarations of values -/

/-- A binding of a variable statement. -/
def binding (allowIn : Bool) : Parse Binding := do
  let shape ← g.pattern
  if g.dialect.types then let _ ← eat "!"
  let type ← if g.dialect.types then annotation g else pure none
  if ← eat "=" then
    let _ ← g.assign allowIn
  return { shape, type }

/-- The bindings of a variable statement. -/
def bindings (allowIn : Bool) : Parse (List Binding) :=
  separated g.bound "," (binding g allowIn)

/-- A function from its word on. -/
def functionDecl (doc : Option String) (nameless : Bool) : Parse DeclNode := do
  expectWord "function"
  let _ ← eat "*"
  let n ← if nameless && !(← atName) then pure none else some <$> name
  let _ ← functionHead g
  bodyOrEnd g
  return .function n doc

/-- A class from its word on. -/
def classDecl (doc : Option String) (nameless : Bool) : Parse DeclNode := do
  expectWord "class"
  let n ← className g
  if n.isNone && !nameless then failure
  else return .classDecl n doc (← classRest g)

/-- The cursor stands on a declaration of resources that are disposed of. -/
def Cursor.startsUsing (c : Cursor) : Bool :=
  let c := if c.isWord "await" && !c.next.newline then c.next else c
  let n := c.next
  c.isWord "using" && n.isName && !n.newline && !n.isWord "of" && !n.isWord "in"

/-- The cursor stands on a variable statement. -/
def Cursor.startsVariable (c : Cursor) : Bool :=
  c.isWord "var" || c.isWord "const" ||
    c.isWord "let" && (c.next.isName || c.next.isPunct "[" || c.next.isPunct "\x7b")

/-! ### Declarations -/

/-- A declaration of a value at the cursor, when there is one. -/
def valueDecl (doc : Option String) (anyLine : Bool) : Parse (Option DeclNode) := do
  let c ← get
  let n := c.next
  if c.isWord "class" then return some (← classDecl g doc false)
  else if g.dialect.types && c.isWord "abstract" && n.isWord "class" && (anyLine || !n.newline) then
    advance
    return some (← classDecl g doc false)
  else if c.isWord "function" then return some (← functionDecl g doc false)
  else if c.isWord "async" && n.isWord "function" && !n.newline then
    advance
    return some (← functionDecl g doc false)
  else if g.dialect.types && c.isWord "const" && n.isWord "enum" then
    advance
    advance
    return some (← enumRest g doc)
  else if c.startsVariable then
    advance
    let bs ← bindings g true
    semicolon
    return some (.variable doc bs)
  else if c.startsUsing then
    let _ ← eatWord "await"
    advance
    let _ ← bindings g true
    semicolon
    return some .nameless
  else return none

/-- A declaration of a type, an enumeration or a namespace at the cursor, when there is one.
`anyLine` allows a line break behind the word that introduces it. -/
def typeDecl (doc : Option String) (anyLine : Bool) : Parse (Option DeclNode) := do
  let c ← get
  let n := c.next
  let sameLine := anyLine || !n.newline
  if !g.dialect.types then return none
  else if c.isWord "interface" && n.isName && sameLine then
    advance
    return some (← interfaceRest g doc)
  else if c.isWord "type" && n.isName && sameLine then
    advance
    return some (← aliasRest g doc)
  else if c.isWord "enum" && n.isName then
    advance
    return some (← enumRest g doc)
  else if c.isWord "namespace" && n.isName then
    advance
    return some (← namespaceRest g doc)
  else if c.isWord "module" && sameLine && (n.isName || n.token matches .string _) then
    advance
    return some (← namespaceRest g doc)
  else return none

/-- A declaration without the mark of an ambient one. -/
def plainDecl (doc : Option String) (anyLine : Bool) : Parse (Option DeclNode) := do
  match ← valueDecl g doc anyLine with
  | some d => return some d
  | none => typeDecl g doc anyLine

/-- What follows the mark of an ambient declaration. -/
def ambientDecl (doc : Option String) : Parse DeclNode := do
  if (← atWord "global") && (← peek).isPunct "\x7b" then
    advance
    namespaceBody g
    return .nameless
  else
    match ← plainDecl g doc true with
    | some d => return d
    | none => failure

/-- **Declaration** at the cursor, when there is one. -/
def declaration (doc : Option String) (anyLine : Bool) : Parse (Option DeclNode) := do
  if g.dialect.types && (← atWord "declare") then
    match ← attempt (do advance; ambientDecl g doc) with
    | some d => return some d
    | none => return none
  else plainDecl g doc anyLine

/-! ### Statements -/

/-- An expression in parentheses. -/
def condition : Parse Unit := do
  expect "("
  let _ ← sequence g true
  expect ")"

/-- An expression, unless the given mark follows at once. -/
def sequenceUnless (mark : String) : Parse Unit := do
  if !(← atPunct mark) then
    let _ ← sequence g true

/-- The head of a loop over values, in parentheses. -/
def forHead : Parse Unit := do
  expect "("
  let c ← get
  if c.isPunct ";" then return ()
  else if c.startsVariable || c.startsUsing then
    let _ ← eatWord "await"
    advance
    let _ ← bindings g false
  else
    let _ ← sequence g false

/-- A loop with `for` behind its word. -/
def forRest : Parse Unit := do
  let _ ← eatWord "await"
  forHead g
  if ← eatWord "of" then
    let _ ← g.assign true
  else if ← eatWord "in" then
    let _ ← sequence g true
  else
    expect ";"
    sequenceUnless g ";"
    expect ";"
    sequenceUnless g ")"
  expect ")"
  g.statement

/-- The cases of a switch behind its opening brace. -/
def switchCase : Parse Unit := do
  if ← eatWord "case" then
    let _ ← sequence g true
    expect ":"
  else if ← eatWord "default" then expect ":"
  else g.statement

/-- A guarded block behind its word. -/
def tryRest : Parse Unit := do
  block g
  let caught ← eatWord "catch"
  if caught then
    if ← eat "(" then
      let _ ← g.pattern
      if g.dialect.types then let _ ← annotation g
      expect ")"
    block g
  let finished ← eatWord "finally"
  if finished then block g
  if caught || finished then return () else failure

/-- A jump behind its word, with a label or without. -/
def jumpRest : Parse Unit := do
  if (← atName) && !(← newlineBefore) then advance
  semicolon

/-- An expression as a statement, or a label in front of one. -/
def expressionStatement : Parse Unit := do
  let c ← get
  if c.isName && c.next.isPunct ":" then
    advance
    advance
    g.statement
  else
    let _ ← sequence g true
    semicolon

/-- A statement that starts with a word and declares nothing. -/
def wordStatement (w : String) : Parse Unit := do
  match w with
  | "if" => do
    advance
    condition g
    g.statement
    if ← eatWord "else" then g.statement
  | "for" => do advance; forRest g
  | "while" | "with" => do advance; condition g; g.statement
  | "do" => do
    advance
    g.statement
    expectWord "while"
    condition g
    let _ ← eat ";"
  | "return" | "throw" => do
    advance
    if !(← atStatementEnd) then
      let _ ← sequence g true
    semicolon
  | "break" | "continue" => do advance; jumpRest
  | "try" => do advance; tryRest g
  | "switch" => do
    advance
    condition g
    expect "\x7b"
    let _ ← manyUntil g.bound "\x7d" (switchCase g)
  | "debugger" => do advance; semicolon
  | _ => expressionStatement g

/-- A statement that declares nothing. -/
def plainStatement : Parse Unit := do
  match ← token with
  | .punct "\x7b" => block g
  | .punct ";" => advance
  | .word w => wordStatement g w
  | _ => expressionStatement g

/-- A class with decorators in front, which are read already. -/
def decoratedClass (doc : Option String) : Parse DeclNode := do
  let _ ← if g.dialect.types then eatWord "abstract" else pure false
  classDecl g doc false

/-- A statement or declaration; a class may have decorators. -/
def statementItem : Parse Item := do
  let (decorated, decoratorDoc) ← decorators g
  if decorated then return .decl (← decoratedClass g decoratorDoc)
  else
    match ← declaration g (← docHere) false with
    | some d => return .decl d
    | none =>
      plainStatement g
      return .statement

/-- **Statement** inside a block. -/
def statementRule : Parse Unit := do
  let _ ← statementItem g

/-! ### Imports -/

/-- The name under which a module exports something. -/
def exportName : Parse String := do
  match ← token with
  | .string s => do advance; return s
  | _ => anyWord

/-- Moves past the mark of a type-only name in a list of names.  The mark may itself be a name, and
so may the word behind it. -/
def eatTypeMark : Parse Unit := do
  let c ← get
  let n := c.next
  if g.dialect.types && c.isWord "type" then
    let ends := fun (c : Cursor) => c.isPunct "," || c.isPunct "\x7d"
    if ends n then return ()
    else if n.isWord "as" then
      -- the mark itself renamed, unless two more words or no word follow
      let m := n.next
      if ends m then advance
      else if m.isWord "as" && !ends m.next then advance
      else return ()
    else advance

/-- One name of an import list. -/
def importName : Parse ImportNode := do
  eatTypeMark g
  let imported ← exportName
  if ← eatWord "as" then return .named (← name) imported
  else if isReserved imported then failure
  else return .named imported imported

/-- The attributes behind a module's specifier, when there are any. -/
def attributes : Parse Unit := do
  let c ← get
  if (c.isWord "with" || c.isWord "assert" && !c.newline) && c.next.isPunct "\x7b" then
    advance
    let _ ← primary g

/-- A module's specifier with the end of its statement. -/
def specifierEnd : Parse String := do
  let s ← stringToken
  attributes g
  semicolon
  return s

/-- The names of an import behind its default name. -/
def importNames : Parse (List ImportNode) := do
  if ← eat "*" then
    expectWord "as"
    return [.all (← name)]
  else
    expect "\x7b"
    commaUntil g.bound "\x7d" (importName g)

/-- The value of an import that binds a name to a module or to another name. -/
def importEqualsRest : Parse Item := do
  expect "="
  if (← atWord "require") && (← peek).isPunct "(" then
    advance
    advance
    let _ ← stringToken
    expect ")"
  else
    let _ ← entityName g
  semicolon
  return .marker

/-- Moves past the mark of a type-only import. -/
def eatImportTypeMark : Parse Unit := do
  let c ← get
  let n := c.next
  if g.dialect.types && c.isWord "type" then
    if n.isPunct "\x7b" || n.isPunct "*" then advance
    else if n.isName && (!n.isWord "from" || n.next.isWord "from" || n.next.isPunct "=") then
      advance
    else return ()

/-- An import behind its word. -/
def importRest : Parse Item := do
  match ← token with
  | .string _ => return .importFrom (← specifierEnd g) []
  | _ => do
    eatImportTypeMark g
    if ← atName then
      let first ← name
      if g.dialect.types && (← atPunct "=") then importEqualsRest g
      else
        let more ← optionalWhen (eat ",") (importNames g)
        expectWord "from"
        return .importFrom (← specifierEnd g) (.named first "default" :: more.getD [])
    else
      let names ← importNames g
      expectWord "from"
      return .importFrom (← specifierEnd g) names

/-! ### Exports -/

/-- One name of an export list. -/
def exportListName : Parse ExportNode := do
  eatTypeMark g
  let origin ← exportName
  if ← eatWord "as" then return .named (← exportName) origin
  else return .named origin origin

/-- Everything of another module, under a name or not. -/
def exportStar : Parse Item := do
  expect "*"
  if ← eatWord "as" then
    let n ← exportName
    expectWord "from"
    return .exportNames (some (← specifierEnd g)) [.all n]
  else
    expectWord "from"
    return .exportAll (← specifierEnd g)

/-- A list of exported names, of this module or of another one. -/
def exportList (first : List ExportNode) : Parse Item := do
  expect "\x7b"
  let names ← commaUntil g.bound "\x7d" (exportListName g)
  if ← eatWord "from" then return .exportNames (some (← specifierEnd g)) (first ++ names)
  else if !first.isEmpty then failure
  else
    semicolon
    return .exportNames none names

/-- The default of another module exported under a name, with or without further names. -/
def exportDefaultFrom : Parse Item := do
  let n ← name
  let first := ExportNode.named n "default"
  if ← eat "," then
    if ← eat "*" then
      expectWord "as"
      let ns ← exportName
      expectWord "from"
      return .exportNames (some (← specifierEnd g)) [first, .all ns]
    else exportList g [first]
  else
    expectWord "from"
    return .exportNames (some (← specifierEnd g)) [first]

/-- **Documentation of an export**: in front of `export`, and in front of decorators before it. -/
structure ExportDocs where
  decorated : Bool
  decoratorDoc : Option String
  exportDoc : Option String

/-- The documentation of an exported class whose first token has the given documentation, further
decorators read behind `export`. -/
def ExportDocs.forClass (docs : ExportDocs) (own inner : Option String) (innerDecorated : Bool) :
    Option String :=
  let decorator :=
    if docs.decorated then docs.decoratorDoc else if innerDecorated then inner else none
  firstDoc [own, decorator, docs.exportDoc]

/-- A default export behind both words. -/
def exportDefaultRest (docs : ExportDocs) : Parse Item := do
  let (innerDecorated, innerDoc) ← decorators g
  let own ← docHere
  let c ← get
  let n := c.next
  let classDoc := docs.forClass own innerDoc innerDecorated
  if g.dialect.types && c.isWord "abstract" && n.isWord "class" && !n.newline then
    advance
    return .exportDefaultDecl docs.exportDoc (← classDecl g classDoc true)
  else if c.isWord "class" then
    return .exportDefaultDecl docs.exportDoc (← classDecl g classDoc true)
  else if innerDecorated || docs.decorated then failure
  else if g.dialect.types && c.isWord "interface" && n.isName then
    advance
    return .exportDefaultDecl docs.exportDoc (← interfaceRest g own)
  else if c.isWord "function" then
    return .exportDefaultDecl docs.exportDoc (← functionDecl g own true)
  else if c.isWord "async" && n.isWord "function" && !n.newline then
    advance
    return .exportDefaultDecl docs.exportDoc (← functionDecl g own true)
  else if !g.dialect.types && c.isWord "from" && (n.token matches .string _) then
    advance
    return .exportNames (some (← specifierEnd g)) [.named "default" "default"]
  else
    let e ← g.assign true
    semicolon
    return .exportDefaultExpr docs.exportDoc e

/-- An exported declaration, or a list of names, behind `export`. -/
def exportDeclOrList (docs : ExportDocs) : Parse Item := do
  let (innerDecorated, innerDoc) ← decorators g
  let own ← docHere
  let c ← get
  let isClass := c.isWord "class" ||
    g.dialect.types && (c.isWord "abstract" || c.isWord "declare")
  let classDoc := docs.forClass own innerDoc innerDecorated
  let d ← declaration g (if isClass then classDoc else own) true
  match d with
  | some (.classDecl n doc body) => return .exportDecl docs.exportDoc (.classDecl n doc body)
  | some d =>
    if innerDecorated || docs.decorated then failure else return .exportDecl docs.exportDoc d
  | none =>
    if innerDecorated || docs.decorated then failure
    else
      if g.dialect.types && c.isWord "type" then advance
      if ← atPunct "*" then exportStar g
      else if ← atPunct "\x7b" then exportList g []
      else if !g.dialect.types then exportDefaultFrom g
      else failure

/-- An export behind its word. -/
def exportRest (docs : ExportDocs) : Parse Item := do
  if ← eatWord "default" then exportDefaultRest g docs
  else if g.dialect.types && (← atWord "import") then
    advance
    let _ ← if (← atWord "type") && (← peek).isName then eatWord "type" else pure false
    let _ ← name
    importEqualsRest g
  else if g.dialect.types && (← atPunct "=") then
    advance
    let _ ← sequence g true
    semicolon
    return .marker
  else if g.dialect.types && (← atWord "as") && (← peek).isWord "namespace" then
    advance
    advance
    let _ ← name
    semicolon
    return .marker
  else exportDeclOrList g docs

/-- **Module item.** -/
def itemRule : Parse Item := do
  let c ← get
  if c.isWord "import" && !(c.next.isPunct "(" || c.next.isPunct ".") then
    advance
    importRest g
  else if c.isWord "export" then
    advance
    exportRest g { decorated := false, decoratorDoc := none, exportDoc := c.doc }
  else
    let (decorated, decoratorDoc) ← decorators g
    if decorated then
      let exportDoc ← docHere
      if ← eatWord "export" then exportRest g { decorated, decoratorDoc, exportDoc }
      else return .decl (← decoratedClass g decoratorDoc)
    else statementItem g

end PropDocs.Source
