import PropDocs.Json.Value

/-!
# Writing JSON

Two layouts of the same value: `compact`, without any blanks, and `pretty`, with one item or
field per line and two spaces for each level.  Empty arrays and objects are written `[]` and
`{}` in both.
-/

namespace PropDocs.Json

/-! ### Strings -/

/-- A hexadecimal digit in lower case. -/
def hexDigit (n : Nat) : Char :=
  if n < 10 then Char.ofNat (48 + n) else Char.ofNat (87 + n)

/-- **Escapes.** Quotes, backslashes and control characters are escaped; all else stands for
itself. -/
def escapeChar (c : Char) : List Char :=
  if c = '"' then ['\\', '"']
  else if c = '\\' then ['\\', '\\']
  else if c = '\x08' then ['\\', 'b']
  else if c = '\x0c' then ['\\', 'f']
  else if c = '\n' then ['\\', 'n']
  else if c = '\r' then ['\\', 'r']
  else if c = '\t' then ['\\', 't']
  else if c.toNat < 0x20 then
    ['\\', 'u', '0', '0', hexDigit (c.toNat / 16), hexDigit (c.toNat % 16)]
  else [c]

/-- A string in quotes. -/
def writeString (s : String) : List Char :=
  '"' :: s.toList.flatMap escapeChar ++ ['"']

/-- A string that may denote no text; such a one is written as a lone surrogate. -/
def writeText (s : Option String) : List Char :=
  match s with
  | some s => writeString s
  | none => "\"\\ud800\"".toList

/-! ### Numbers -/

/-- A decimal: its digits, and its power of ten unless that is zero. -/
def writeDecimal (d : Decimal) : List Char :=
  let sign := if d.negative then ['-'] else []
  let body := sign ++ Nat.toDigits 10 d.digits
  if d.exponent = 0 then body
  else if d.exponent < 0 then body ++ 'e' :: '-' :: Nat.toDigits 10 d.exponent.natAbs
  else body ++ 'e' :: Nat.toDigits 10 d.exponent.natAbs

/-! ### Layouts -/

/-- **Layout.** `none` writes no blanks; `some depth` breaks lines and indents by two spaces for
each level of depth. -/
abbrev Layout := Option Nat

/-- The layout one level further in. -/
def Layout.deeper (l : Layout) : Layout :=
  l.map (· + 1)

/-- A line break followed by the indentation of the layout. -/
def Layout.newline : Layout → List Char
  | none => []
  | some depth => '\n' :: List.replicate (2 * depth) ' '

/-- What stands between a field's name and its value. -/
def Layout.colon : Layout → List Char
  | none => [':']
  | some _ => [':', ' ']

mutual

/-- **Writing** a value in a layout. -/
def write (l : Layout) : Json → List Char
  | .null => ['n', 'u', 'l', 'l']
  | .bool true => ['t', 'r', 'u', 'e']
  | .bool false => ['f', 'a', 'l', 's', 'e']
  | .number d => writeDecimal d
  | .string s => writeText s
  | .array [] => ['[', ']']
  | .array (v :: vs) => '[' :: writeItems l.deeper (v :: vs) ++ l.newline ++ [']']
  | .object [] => ['{', '}']
  | .object (f :: fs) => '{' :: writeFields l.deeper (f :: fs) ++ l.newline ++ ['}']

/-- The items of an array, each in front of it a line break and a comma between neighbours. -/
def writeItems (l : Layout) : List Json → List Char
  | [] => []
  | [v] => l.newline ++ write l v
  | v :: vs => l.newline ++ write l v ++ ',' :: writeItems l vs

/-- The fields of an object, laid out like the items of an array. -/
def writeFields (l : Layout) : List (Option String × Json) → List Char
  | [] => []
  | [(name, v)] => l.newline ++ writeText name ++ l.colon ++ write l v
  | (name, v) :: fs =>
    l.newline ++ writeText name ++ l.colon ++ write l v ++ ',' :: writeFields l fs

end

/-- The value without any blanks. -/
def compact (v : Json) : String :=
  String.ofList (write none v)

/-- The value with one item or field per line. -/
def pretty (v : Json) : String :=
  String.ofList (write (some 0) v)

end PropDocs.Json
