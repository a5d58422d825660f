import PropDocs.Number.Decimal

/-!
# JSON values

A JSON value with the order of its object fields, repeated fields included.  A string may spell a
lone surrogate: that is valid syntax, but denotes no text.
-/

namespace PropDocs

/-- **JSON value.** The text of a string, and of a field's name, is `none` when its escapes spell
a lone surrogate. -/
inductive Json where
  | null
  | bool (value : Bool)
  | number (value : Decimal)
  | string (text : Option String)
  | array (items : List Json)
  | object (fields : List (Option String × Json))
  deriving Repr, Inhabited

namespace Json

/-- The value of a string. -/
def text (s : String) : Json := .string (some s)

/-- The value of a natural number. -/
def nat (n : Nat) : Json := .number { digits := n }

/-- An object from names and values. -/
def record (fields : List (String × Json)) : Json :=
  .object (fields.map fun f => (some f.1, f.2))

end Json

end PropDocs
