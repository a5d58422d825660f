import PropDocs.DocComment
import PropDocs.Module.Basic

/-!
# Type engines

Extraction never looks at sources.  It asks an engine, which knows symbols, their declarations and
their types, and answers the same question always in the same way.  `Engine σ τ δ` is such an engine
with symbols `σ`, types `τ` and declarations `δ`; it is nothing but its answers.
-/

namespace PropDocs

/-- **Flags of a symbol.** -/
structure SymbolFlags where
  /-- Declared as one that may be missing. -/
  optional : Bool := false
  /-- A data property. -/
  property : Bool := false
  /-- A method. -/
  method : Bool := false
  /-- A getter or a setter. -/
  accessor : Bool := false
  deriving DecidableEq, Repr, Inhabited

/-- **Type engine.** -/
structure Engine (σ τ δ : Type) where
  /-- The symbol of the module in a file; a file that is no module has none. -/
  module? : Path → Option σ
  /-- The symbols a module exports, in order. -/
  exports : σ → List σ
  /-- The name of a symbol; for an export, the name it is exported under. -/
  name : σ → String
  /-- The declarations of a symbol, in order. -/
  declarations : σ → List δ
  kind : δ → DeclKind
  /-- The declaration that carries the value of a symbol. -/
  valueDeclaration? : σ → Option δ
  /-- The documentation text of a symbol; `none` when it cannot have any. -/
  documentation? : σ → Option String
  /-- The tags of a symbol, in order. -/
  tags : σ → List RawTag
  /-- The type a symbol declares. -/
  declaredType : σ → τ
  flags : σ → SymbolFlags
  /-- The type of a symbol as seen from one of its declarations. -/
  typeAt : σ → δ → τ
  /-- The properties of a type, inherited ones included. -/
  properties : τ → List σ
  /-- The members of a union. -/
  unionParts? : τ → Option (List τ)
  /-- The members of an intersection. -/
  intersectionParts? : τ → Option (List τ)
  /-- The string of a string literal type. -/
  stringLiteral? : τ → Option String
  /-- The text of a type, on one line. -/
  print : τ → String

end PropDocs
