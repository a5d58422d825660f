import PropDocs.TypeExpr.Basic
import PropDocs.Number.Shortest

/-!
# Printing types

The canonical one-line text of a written type.  An operand is put in parentheses when it binds
looser than its place asks for; how tightly a form binds is its `precedence`:

| level | forms |
|---|---|
| 0 | functions and conditional types |
| 1 | unions of two or more types |
| 2 | intersections of two or more types |
| 3 | operators, inferred types and predicates |
| 4 | arrays, indexed types, optional and rest elements |
| 5 | everything else |
-/

namespace PropDocs

/-- **Quoted text.** Quotes, backslashes, line breaks and tabs are escaped. -/
def quoteChar (c : Char) : List Char :=
  if c = '"' then ['\\', '"']
  else if c = '\\' then ['\\', '\\']
  else if c = '\n' then ['\\', 'n']
  else if c = '\r' then ['\\', 'r']
  else if c = '\t' then ['\\', 't']
  else [c]

/-- A string literal in double quotes. -/
def quoteString (s : String) : String :=
  String.ofList ('"' :: s.toList.flatMap quoteChar ++ ['"'])

namespace TypeExpr

/-- **Precedence.** How tightly a printed type binds. -/
def precedence : TypeExpr → Nat
  | .function _ _ | .conditional _ _ _ _ => 0
  | .union (_ :: _ :: _) => 1
  | .intersection (_ :: _ :: _) => 2
  | .operator _ _ | .infer _ | .predicate _ _ _ => 3
  | .array _ | .indexed _ _ | .optional _ | .rest _ => 4
  | _ => 5

/-- Puts the text of a type in parentheses when the type binds looser than `min`. -/
def parenthesize (t : TypeExpr) (min : Nat) (text : String) : String :=
  if t.precedence < min then "(" ++ text ++ ")" else text

/-- A modifier of a mapped type in front of its word. -/
def modifierText (m : Option MappedModifier) (word : String) : String :=
  match m with
  | some m => m.sign ++ word
  | none => ""

/-- A mark that is written only when its flag is set. -/
def mark (flag : Bool) (text : String) : String :=
  if flag then text else ""

mutual

/-- **Text of a type.** -/
def print : TypeExpr → String
  | .keyword k => k.text
  | .string s => quoteString s
  | .number n => n.render
  | .bigint digits => digits ++ "n"
  | .boolean b => if b then "true" else "false"
  | .template parts => "`" ++ printParts parts ++ "`"
  | .reference name args => name ++ printArgs args
  | .array t => parenthesize t 4 (print t) ++ "[]"
  | .tuple elements => "[" ++ printElements elements ++ "]"
  | .optional t => parenthesize t 4 (print t) ++ "?"
  | .rest t => "..." ++ parenthesize t 4 (print t)
  | .union types => printOperands 1 " | " types
  | .intersection types => printOperands 2 " & " types
  | .function signature isConstructor =>
    mark isConstructor "new " ++ printHead signature ++ " => " ++ printReturn signature
  | .object [] => "\x7b\x7d"
  | .object (m :: ms) => "\x7b " ++ printMembers (m :: ms) ++ "\x7d"
  | .operator op t => op.text ++ " " ++ parenthesize t 3 (print t)
  | .indexed base index => parenthesize base 4 (print base) ++ "[" ++ print index ++ "]"
  | .conditional check bound yes no =>
    parenthesize check 1 (print check) ++ " extends " ++ parenthesize bound 1 (print bound) ++
      " ? " ++ print yes ++ " : " ++ print no
  | .mapped m => printMapped m
  | .infer name => "infer " ++ name
  | .query name => "typeof " ++ name
  | .imported argument qualifier args =>
    "import(\"" ++ argument ++ "\")" ++
      (match qualifier with
        | some q => "." ++ q
        | none => "") ++
      printArgs args
  | .predicate asserts param type => mark asserts "asserts " ++ param ++ printIs type
  | .thisType => "this"

/-- Types with a separator between them, each in parentheses when it binds looser than `min`. -/
def printOperands (min : Nat) (sep : String) : List TypeExpr → String
  | [] => ""
  | [t] => parenthesize t min (print t)
  | t :: ts => parenthesize t min (print t) ++ sep ++ printOperands min sep ts

/-- Type arguments in angle brackets; no brackets when there are none. -/
def printArgs : List TypeExpr → String
  | [] => ""
  | t :: ts => "<" ++ printOperands 0 ", " (t :: ts) ++ ">"

/-- The parts of a template. -/
def printParts : List TemplatePart → String
  | [] => ""
  | .text text :: ps => text ++ printParts ps
  | .type t :: ps => "$\x7b" ++ print t ++ "\x7d" ++ printParts ps

/-- Tuple elements with commas between them. -/
def printElements : List TupleElement → String
  | [] => ""
  | [e] => printElement e
  | e :: es => printElement e ++ ", " ++ printElements es

/-- A tuple element.  With a label, the marks of optional and rest elements go to the label. -/
def printElement : TupleElement → String
  | ⟨some label, .optional t⟩ => label ++ "?: " ++ print t
  | ⟨some label, .rest t⟩ => "..." ++ label ++ ": " ++ print t
  | ⟨some label, t⟩ => label ++ ": " ++ print t
  | ⟨none, t⟩ => print t

/-- Type parameters and parameters of a signature. -/
def printHead : Signature → String
  | ⟨[], params, _⟩ => "(" ++ printParams params ++ ")"
  | ⟨p :: ps, params, _⟩ => "<" ++ printTypeParams (p :: ps) ++ ">(" ++ printParams params ++ ")"

/-- The return type of a signature. -/
def printReturn : Signature → String
  | ⟨_, _, returns⟩ => print returns

/-- Type parameters with commas between them. -/
def printTypeParams : List TypeParam → String
  | [] => ""
  | [p] => printTypeParam p
  | p :: ps => printTypeParam p ++ ", " ++ printTypeParams ps

/-- A type parameter with its constraint and its default. -/
def printTypeParam : TypeParam → String
  | ⟨name, constraint, default⟩ =>
    name ++ printAfter " extends " constraint ++ printAfter " = " default

/-- A type behind a word, both missing together. -/
def printAfter (word : String) : Option TypeExpr → String
  | none => ""
  | some t => word ++ print t

/-- Parameters with commas between them. -/
def printParams : List Param → String
  | [] => ""
  | [p] => printParam p
  | p :: ps => printParam p ++ ", " ++ printParams ps

/-- A parameter; one without annotation takes anything. -/
def printParam : Param → String
  | ⟨name, isOptional, isRest, type⟩ =>
    mark isRest "..." ++ name ++ mark isOptional "?" ++ ": " ++
      printOr (if isRest then "any[]" else "any") type

/-- A type, or the given text in place of a missing one. -/
def printOr (absent : String) : Option TypeExpr → String
  | none => absent
  | some t => print t

/-- Members, each followed by a space. -/
def printMembers : List Member → String
  | [] => ""
  | m :: ms => printMember m ++ " " ++ printMembers ms

/-- **Text of a member.** -/
def printMember : Member → String
  | ⟨name, .method, isOptional, _, some (.function signature _), _, _⟩ =>
    name ++ mark isOptional "?" ++ printHead signature ++ ": " ++ printReturn signature ++ ";"
  | ⟨name, .getter, _, _, type, _, _⟩ => "get " ++ name ++ "(): " ++ printOr "any" type ++ ";"
  | ⟨name, .setter, _, _, type, _, _⟩ => "set " ++ name ++ "(value: " ++ printOr "any" type ++ ");"
  | ⟨name, _, isOptional, isReadonly, type, _, _⟩ =>
    mark isReadonly "readonly " ++ name ++ mark isOptional "?" ++ ": " ++ printOr "any" type ++ ";"

/-- A mapped type. -/
def printMapped : MappedType → String
  | ⟨readonlyMod, param, constraint, nameType, optionalMod, type⟩ =>
    "\x7b " ++ modifierText readonlyMod "readonly " ++ "[" ++ param ++ " in " ++
      printOr "any" constraint ++ printAfter " as " nameType ++ "]" ++
      modifierText optionalMod "?" ++ ": " ++ printOr "any" type ++ "; \x7d"

/-- The type a predicate asserts. -/
def printIs : Option TypeExpr → String
  | none => ""
  | some t => " is " ++ print t

end

end TypeExpr

end PropDocs
