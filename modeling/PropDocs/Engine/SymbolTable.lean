import PropDocs.Engine.Basic
import PropDocs.Path
import PropDocs.Text.Blank

/-!
# Symbol tables

An engine that is a table: symbols are listed one by one and refer to each other by their place in
the list.  Modules are symbols too; they are found by their paths.
-/

namespace PropDocs

/-- **Type of a table's symbol.** -/
inductive TableType where
  /-- A type known by its text. -/
  | named (text : String)
  | string (value : String)
  | union (members : List TableType)
  | intersection (members : List TableType)
  /-- An object type whose properties are the symbols at the given places. -/
  | object (properties : List Nat)
  deriving Repr, Inhabited

/-- **Symbol of a table.** -/
structure TableSymbol where
  name : String := ""
  flags : SymbolFlags := {}
  type : TableType := .named "any"
  kind : DeclKind := .other
  doc : String := ""
  tags : List RawTag := []
  hasDeclaration : Bool := true
  documentable : Bool := true
  exports : List Nat := []
  deriving Repr, Inhabited

/-- **Symbol table.** -/
structure SymbolTable where
  symbols : List TableSymbol := []
  /-- Modules by path, the one added last in front. -/
  modules : List (Path × Nat) := []
  deriving Inhabited

namespace SymbolTable

/-- Adds a symbol at the end. -/
def add (t : SymbolTable) (s : TableSymbol) : SymbolTable :=
  { t with symbols := t.symbols ++ [s] }

/-- Adds a module that exports the symbols at the given places.  It hides a module added before at
the same path. -/
def addModule (t : SymbolTable) (path : Path) (exports : List Nat) : SymbolTable :=
  { symbols := t.symbols ++ [{ name := path, exports }]
    modules := (path, t.symbols.length) :: t.modules }

/-- The symbol at a place. -/
def symbol (t : SymbolTable) (place : Nat) : TableSymbol :=
  t.symbols.getD place {}

mutual

/-- The text of a type. -/
def print (t : SymbolTable) : TableType → String
  | .named text => text
  | .string value => "\"" ++ value ++ "\""
  | .union members => " | ".intercalate (t.printAll members)
  | .intersection members => " & ".intercalate (t.printAll members)
  | .object properties =>
    "\x7b " ++ "; ".intercalate (properties.map fun i => (t.symbol i).name) ++ " \x7d"

/-- The texts of a list of types. -/
def printAll (t : SymbolTable) : List TableType → List String
  | [] => []
  | m :: ms => t.print m :: t.printAll ms

end

/-- **The engine of a table.** -/
def engine (t : SymbolTable) : Engine Nat TableType DeclKind where
  module? path := (t.modules.find? fun m => Path.same m.1 path).map Prod.snd
  exports i := (t.symbol i).exports
  name i := (t.symbol i).name
  declarations i := if (t.symbol i).hasDeclaration then [(t.symbol i).kind] else []
  kind k := k
  valueDeclaration? i := if (t.symbol i).hasDeclaration then some (t.symbol i).kind else none
  documentation? i := if (t.symbol i).documentable then some (t.symbol i).doc else none
  tags i := (t.symbol i).tags
  declaredType i := (t.symbol i).type
  flags i := (t.symbol i).flags
  typeAt i _ := (t.symbol i).type
  properties
    | .object properties => properties
    | _ => []
  unionParts?
    | .union members => some members
    | _ => none
  intersectionParts?
    | .intersection members => some members
    | _ => none
  stringLiteral?
    | .string value => some value
    | _ => none
  print := t.print

end SymbolTable

end PropDocs
