import PropDocs.Json.Value

/-!
# Reading JSON

A reader for strict JSON texts: no comments, no trailing commas, no leading zeros, no control
characters inside strings, nothing but blanks after the value.  Each reader takes the characters
that are left and returns what it read together with the characters behind it.

* `readString`: a string's characters, escapes resolved;
* `readNumber`: a number as a decimal;
* `Json.read?`: a whole text.  Nesting is bounded only by the length of the text.
-/

namespace PropDocs.Json

/-! ### Blanks -/

/-- The four characters that may stand between tokens. -/
def isSpace (c : Char) : Bool :=
  c == ' ' || c == '\n' || c == '\r' || c == '\t'

/-- Drops the blanks in front. -/
def skipSpace (cs : List Char) : List Char :=
  cs.dropWhile isSpace

/-! ### Strings -/

/-- The code unit spelled by four hexadecimal digits. -/
def hexUnit? (a b c d : Char) : Option Nat := do
  let a ← Decimal.digitValue? a
  let b ← Decimal.digitValue? b
  let c ← Decimal.digitValue? c
  let d ← Decimal.digitValue? d
  return ((a * 16 + b) * 16 + c) * 16 + d

/-- The character of a one-letter escape. -/
def simpleEscape? (c : Char) : Option Char :=
  match c with
  | '"' => some '"'
  | '\\' => some '\\'
  | '/' => some '/'
  | 'b' => some '\x08'
  | 'f' => some '\x0c'
  | 'n' => some '\n'
  | 'r' => some '\r'
  | 't' => some '\t'
  | _ => none

/-- **String body.** The code units between an opening quote and the next quote that is not
escaped, and the characters behind that quote.  A control character is refused. -/
def readUnits : List Char → Option (List Nat × List Char)
  | [] => none
  | '"' :: rest => some ([], rest)
  | '\\' :: 'u' :: a :: b :: c :: d :: rest => do
    let unit ← hexUnit? a b c d
    let (units, rest) ← readUnits rest
    return (unit :: units, rest)
  | '\\' :: e :: rest => do
    let ch ← simpleEscape? e
    let (units, rest) ← readUnits rest
    return (ch.toNat :: units, rest)
  | ch :: rest =>
    if ch.toNat < 0x20 ∨ ch = '\\' then none
    else do
      let (units, rest) ← readUnits rest
      return (ch.toNat :: units, rest)

/-- The first half of a surrogate pair. -/
def isHighSurrogate (n : Nat) : Bool := 0xd800 ≤ n && n < 0xdc00

/-- The second half of a surrogate pair. -/
def isLowSurrogate (n : Nat) : Bool := 0xdc00 ≤ n && n < 0xe000

/-- **Surrogates.** Joins each pair of surrogates into one character; `none` when one of them
stands alone. -/
def joinSurrogates? : List Nat → Option (List Char)
  | [] => some []
  | [n] => if isHighSurrogate n || isLowSurrogate n then none else some [Char.ofNat n]
  | n :: m :: rest =>
    if isHighSurrogate n then
      if isLowSurrogate m then
        (joinSurrogates? rest).map (Char.ofNat (0x10000 + (n - 0xd800) * 0x400 + (m - 0xdc00)) :: ·)
      else none
    else if isLowSurrogate n then none
    else (joinSurrogates? (m :: rest)).map (Char.ofNat n :: ·)

/-- A string behind its opening quote. -/
def readString (cs : List Char) : Option (Option String × List Char) := do
  let (units, rest) ← readUnits cs
  return ((joinSurrogates? units).map String.ofList, rest)

/-! ### Numbers -/

/-- The digits in front, and what follows them. -/
def spanDigits (cs : List Char) : List Char × List Char :=
  (cs.takeWhile Char.isDigit, cs.dropWhile Char.isDigit)

/-- At least one digit. -/
def readDigits (cs : List Char) : Option (List Char × List Char) :=
  let (ds, rest) := spanDigits cs
  if ds.isEmpty then none else some (ds, rest)

/-- The whole part of a number: a zero, or digits that do not start with one. -/
def readWhole : List Char → Option (List Char × List Char)
  | '0' :: rest => some (['0'], rest)
  | cs => readDigits cs

/-- The fraction part, when there is one. -/
def readFraction : List Char → Option (List Char × List Char)
  | '.' :: rest => readDigits rest
  | cs => some ([], cs)

/-- The power of ten, when there is one. -/
def readExponent : List Char → Option (Int × List Char)
  | e :: rest =>
    if e = 'e' ∨ e = 'E' then
      match rest with
      | '-' :: rest => (readDigits rest).map fun (ds, rest) => (-(Decimal.ofDigits ds : Int), rest)
      | '+' :: rest => (readDigits rest).map fun (ds, rest) => ((Decimal.ofDigits ds : Int), rest)
      | rest => (readDigits rest).map fun (ds, rest) => ((Decimal.ofDigits ds : Int), rest)
    else some (0, e :: rest)
  | [] => some (0, [])

/-- A number without its sign. -/
def readUnsigned (negative : Bool) (cs : List Char) : Option (Decimal × List Char) := do
  let (whole, rest) ← readWhole cs
  let (fraction, rest) ← readFraction rest
  let (exponent, rest) ← readExponent rest
  return (Decimal.ofPieces negative whole fraction exponent, rest)

/-- A number. -/
def readNumber : List Char → Option (Decimal × List Char)
  | '-' :: rest => readUnsigned true rest
  | cs => readUnsigned false cs

/-! ### Values -/

/-- A bare word and the value it stands for. -/
def readWord (cs : List Char) : Option (Json × List Char) :=
  match cs with
  | 't' :: 'r' :: 'u' :: 'e' :: rest => some (.bool true, rest)
  | 'f' :: 'a' :: 'l' :: 's' :: 'e' :: rest => some (.bool false, rest)
  | 'n' :: 'u' :: 'l' :: 'l' :: rest => some (.null, rest)
  | _ => (readNumber cs).map fun (n, rest) => (.number n, rest)

mutual

/-- **Value.** The value in front, blanks before it skipped. -/
def readValue : (fuel : Nat) → List Char → Option (Json × List Char)
  | 0, _ => none
  | fuel + 1, cs =>
    match skipSpace cs with
    | '"' :: rest => (readString rest).map fun (s, rest) => (.string s, rest)
    | '[' :: rest =>
      match skipSpace rest with
      | ']' :: rest => some (.array [], rest)
      | rest => (readItems fuel rest).map fun (items, rest) => (.array items, rest)
    | '{' :: rest =>
      match skipSpace rest with
      | '}' :: rest => some (.object [], rest)
      | rest => (readFields fuel rest).map fun (fields, rest) => (.object fields, rest)
    | rest => readWord rest

/-- The items of an array up to its closing bracket; there is at least one. -/
def readItems : (fuel : Nat) → List Char → Option (List Json × List Char)
  | 0, _ => none
  | fuel + 1, cs => do
    let (item, rest) ← readValue fuel cs
    match skipSpace rest with
    | ',' :: rest =>
      let (items, rest) ← readItems fuel rest
      return (item :: items, rest)
    | ']' :: rest => return ([item], rest)
    | _ => none

/-- The fields of an object up to its closing brace; there is at least one. -/
def readFields : (fuel : Nat) → List Char → Option (List (Option String × Json) × List Char)
  | 0, _ => none
  | fuel + 1, cs => do
    match skipSpace cs with
    | '"' :: rest =>
      let (name, rest) ← readString rest
      match skipSpace rest with
      | ':' :: rest =>
        let (value, rest) ← readValue fuel rest
        match skipSpace rest with
        | ',' :: rest =>
          let (fields, rest) ← readFields fuel rest
          return ((name, value) :: fields, rest)
        | '}' :: rest => return ([(name, value)], rest)
        | _ => none
      | _ => none
    | _ => none

end

/-- **Reading a text.** The value of a JSON text; `none` when the text is not JSON. -/
def read? (text : String) : Option Json :=
  let cs := text.toList
  match readValue (cs.length + 1) cs with
  | some (value, rest) => if (skipSpace rest).isEmpty then some value else none
  | none => none

end PropDocs.Json
