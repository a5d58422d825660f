import PropDocs.Source.Token
import PropDocs.Source.Tree

/-!
# Reading with a cursor

`Parse α` reads a value from the cursor and moves it, or fails.  A failure has no cause: a source
text is either read whole or refused.

The grammar is written with open recursion.  `Grammar` holds one reader for each nonterminal that
the rules use recursively, and every rule takes a `Grammar` for what it finds inside brackets.
`Grammar.bound` bounds the length of every list in the text.
-/

namespace PropDocs.Source

/-- **Reader.** -/
abbrev Parse (α : Type) := StateT Cursor Option α

/-- **Dialect** of a source text: with or without types, with or without markup. -/
structure Dialect where
  types : Bool := true
  markup : Bool := false
  deriving DecidableEq, Repr, Inhabited

/-- **Grammar**: the recursive nonterminals, each one level further down. -/
structure Grammar where
  dialect : Dialect
  /-- No list in the text is longer. -/
  bound : Nat
  /-- A type; the flag keeps conditional types out of the operand of `extends`. -/
  type : (noConditional : Bool) → Parse TypeNode
  /-- An assignment expression; the flag allows the operator `in`. -/
  assign : (allowIn : Bool) → Parse Expr
  /-- An expression that ends with a name, brackets or a call. -/
  lhs : Parse Expr
  /-- A binding pattern or name. -/
  pattern : Parse BindingShape
  /-- A statement inside a block. -/
  statement : Parse Unit
  /-- An item inside a namespace. -/
  item : Parse Unit
  /-- Markup behind its opening bracket; the result is the characters behind it. -/
  markup : List Char → Option (List Char)

/-! ### Tokens -/

/-- The current token. -/
def token : Parse Token := return (← get).token

/-- Whether a line break stands in front of the current token. -/
def newlineBefore : Parse Bool := return (← get).newline

/-- The documentation comment in front of the current token. -/
def docHere : Parse (Option String) := return (← get).doc

/-- The token behind the current one. -/
def peek : Parse Cursor := return (← get).next

/-- Moves to the next token. -/
def advance : Parse Unit := modify Cursor.next

/-- The current token is the given punctuator. -/
def atPunct (p : String) : Parse Bool := return (← token) == .punct p

/-- The current token is the given word. -/
def atWord (w : String) : Parse Bool := return (← token) == .word w

/-- Moves past the given punctuator when it is there. -/
def eat (p : String) : Parse Bool := do
  if ← atPunct p then
    advance
    return true
  else return false

/-- Moves past the given word when it is there. -/
def eatWord (w : String) : Parse Bool := do
  if ← atWord w then
    advance
    return true
  else return false

/-- The given punctuator has to be there. -/
def expect (p : String) : Parse Unit := do
  if ← eat p then return () else failure

/-- The given word has to be there. -/
def expectWord (w : String) : Parse Unit := do
  if ← eatWord w then return () else failure

/-- The current token is an identifier. -/
def atName : Parse Bool := do
  match ← token with
  | .word w => return !isReserved w
  | _ => return false

/-- An identifier. -/
def name : Parse String := do
  match ← token with
  | .word w => if isReserved w then failure else do advance; return w
  | _ => failure

/-- A word, reserved or not. -/
def anyWord : Parse String := do
  match ← token with
  | .word w => do advance; return w
  | _ => failure

/-- A string. -/
def stringToken : Parse String := do
  match ← token with
  | .string s => do advance; return s
  | _ => failure

/-- The token of a cursor is an identifier. -/
def Cursor.isName (c : Cursor) : Bool :=
  match c.token with
  | .word w => !isReserved w
  | _ => false

/-- The token of a cursor is the given word. -/
def Cursor.isWord (c : Cursor) (w : String) : Bool := c.token == .word w

/-- The token of a cursor is the given punctuator. -/
def Cursor.isPunct (c : Cursor) (p : String) : Bool := c.token == .punct p

/-! ### Combinators -/

/-- Reads, or stays where it is. -/
def attempt {α : Type} (p : Parse α) : Parse (Option α) := fun c =>
  match p c with
  | some (a, c') => some (some a, c')
  | none => some (none, c)

/-- Reads with the first reader, or else with the second one from the same place. -/
def orElse {α : Type} (p q : Parse α) : Parse α := fun c =>
  match p c with
  | some r => some r
  | none => q c

/-- Reads `p` when the test holds. -/
def optionalWhen {α : Type} (test : Parse Bool) (p : Parse α) : Parse (Option α) := do
  if ← test then return some (← p) else return none

/-- **Repetition.** Reads items until the step finds no more. -/
def many {α : Type} (step : Parse (Option α)) : (bound : Nat) → Parse (List α)
  | 0 => failure
  | bound + 1 => do
    match ← step with
    | some a => return a :: (← many step bound)
    | none => return []

/-- **Items up to a closing mark**, which is read too. -/
def manyUntil {α : Type} (bound : Nat) (close : String) (item : Parse α) : Parse (List α) :=
  many (do if ← eat close then return none else return some (← item)) bound

/-- **Comma-separated items up to a closing mark**, which is read too; a comma may follow the last
item. -/
def commaUntil {α : Type} (bound : Nat) (close : String) (item : Parse α) : Parse (List α) :=
  many (do
    if ← eat close then return none
    else
      let a ← item
      if ← atPunct close then return some a
      else
        expect ","
        return some a) bound

/-- **Items with a separator between neighbours**, at least one. -/
def separated {α : Type} (bound : Nat) (sep : String) (item : Parse α) : Parse (List α) := do
  let first ← item
  let more ← many (do if ← eat sep then return some (← item) else return none) bound
  return first :: more

/-- **End of a statement**: a semicolon, or a place where one may be left out. -/
def semicolon : Parse Unit := do
  if ← eat ";" then return ()
  else if (← newlineBefore) || (← atPunct "\x7d") || (← token) == .eof then return ()
  else failure

/-- Whether a statement could end here. -/
def atStatementEnd : Parse Bool := do
  return (← newlineBefore) || (← atPunct ";") || (← atPunct "\x7d") || (← token) == .eof

end PropDocs.Source
