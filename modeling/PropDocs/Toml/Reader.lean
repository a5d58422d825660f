import PropDocs.Toml.Number
import PropDocs.Toml.Table
import PropDocs.Toml.Text

/-!
# Reading TOML

A reader for TOML documents.  The result is the value of the document's root table; a date is a
record of its text.

* `readKey`: a key, dotted or not;
* `readValue`: a value.  Arrays and inline tables nest up to a fixed depth;
* `Toml.read?`: a document, line by line.
-/

namespace PropDocs.Toml

/-- Neither keys nor values may nest as deep as this. -/
def nestingLimit : Nat := 80

/-! ### Keys -/

/-- A character of a bare key. -/
def isBareKey (c : Char) : Bool :=
  c.isAlphanum || c == '_' || c == '-'

/-- One part of a key: a bare word or a string. -/
def readKeyPart (cs : List Char) : Option (String × List Char) :=
  match readSingleLine cs with
  | some (body, rest) => some (String.ofList body, rest)
  | none =>
    let word := cs.takeWhile isBareKey
    if word.isEmpty then none else some (String.ofList word, cs.dropWhile isBareKey)

/-- The parts of a key, with dots between them and blanks around them. -/
def readKeyParts : (fuel : Nat) → List Char → Option (List String × List Char)
  | 0, _ => none
  | fuel + 1, cs => do
    let (part, rest) ← readKeyPart (skipSpace cs)
    match skipSpace rest with
    | '.' :: rest =>
      let (parts, rest) ← readKeyParts fuel rest
      return (part :: parts, rest)
    | rest => return ([part], rest)

/-- **Key**: the keys that lead to it, and its last part. -/
def readKey (cs : List Char) : Option (List String × String × List Char) := do
  let (parts, rest) ← readKeyParts (nestingLimit - 1) cs
  let last ← parts.getLast?
  return (parts.dropLast, last, rest)

/-! ### Values -/

/-- What reads the values inside an array or an inline table. -/
abbrev ValueReader := List Char → Option (Json × List Char)

/-- The items of an array up to its closing bracket; a comma may follow the last one. -/
def readItems (value : ValueReader) : (fuel : Nat) → List Char → Option (List Json × List Char)
  | 0, _ => none
  | fuel + 1, cs => do
    match ← skipFiller false cs with
    | ']' :: rest => return ([], rest)
    | cs =>
      let (item, rest) ← value cs
      match ← skipFiller false rest with
      | ',' :: rest =>
        let (items, rest) ← readItems value fuel rest
        return (item :: items, rest)
      | ']' :: rest => return ([item], rest)
      | _ => none

/-- The pairs of an inline table up to its closing brace; there is at least one. -/
def readPairs (value : ValueReader) : (fuel : Nat) → Table → List Char → Option (Table × List Char)
  | 0, _, _ => none
  | fuel + 1, t, cs => do
    let (path, key, rest) ← readKey cs
    let rest ← expect '=' rest
    let (v, rest) ← value (skipSpace rest)
    let t ← setValue path key v .header t
    match skipSpace rest with
    | ',' :: rest => readPairs value fuel t rest
    | '}' :: rest => return (t, rest)
    | _ => none

/-- An inline table behind its opening brace. -/
def readInlineTable (value : ValueReader) (cs : List Char) : Option (Json × List Char) :=
  match skipSpace cs with
  | '}' :: rest => some (.object [], rest)
  | _ => (readPairs value (cs.length + 1) [] cs).map fun (t, rest) => (t.toJson, rest)

/-- A value without parts. -/
def readScalar : ValueReader
  | 't' :: 'r' :: 'u' :: 'e' :: rest => some (.bool true, rest)
  | 'f' :: 'a' :: 'l' :: 's' :: 'e' :: rest => some (.bool false, rest)
  | cs =>
    match readString cs with
    | some (body, rest) => some (.text (String.ofList body), rest)
    | none => readNumber cs

/-- **Value**, with fewer than `levels` levels of arrays and inline tables. -/
def readValue : (levels : Nat) → ValueReader
  | 0, _ => none
  | levels + 1, cs =>
    match cs with
    | '[' :: rest =>
      if levels = 0 then none
      else
        (readItems (readValue levels) (rest.length + 1) rest).map fun (items, rest) =>
          (.array items, rest)
    | '{' :: rest => if levels = 0 then none else readInlineTable (readValue levels) rest
    | _ => readScalar cs

/-! ### Documents -/

/-- **State of a document**: the table that the last header opened, by the keys that lead to it, and
the root table. -/
structure Document where
  current : List String := []
  root : Table := []

namespace Document

/-- A key and its value, added to the current table. -/
def addPair (d : Document) (cs : List Char) : Option (Document × List Char) := do
  let (path, key, rest) ← readKey cs
  let rest ← expect '=' rest
  let (v, rest) ← readValue nestingLimit (skipSpace rest)
  let root ← descend false (setValue path key v) d.current .header d.root
  return ({ d with root }, rest)

/-- A table header behind its opening bracket. -/
def addHeader (d : Document) (cs : List Char) : Option (Document × List Char) := do
  let (path, key, rest) ← readKey cs
  let rest ← expect ']' rest
  let root ← openTable path key .header d.root
  return ({ current := path ++ [key], root }, rest)

/-- A header of an array of tables behind its opening brackets. -/
def addArrayHeader (d : Document) (cs : List Char) : Option (Document × List Char) := do
  let (path, key, rest) ← readKey cs
  let rest ← expect ']' (← expect ']' rest)
  let root ← openTables path key .header d.root
  return ({ current := path ++ [key], root }, rest)

/-- What a line holds, if it holds anything. -/
def addLine (d : Document) (cs : List Char) : Option (Document × List Char) :=
  match skipSpace cs with
  | [] => some (d, [])
  | '[' :: '[' :: rest => d.addArrayHeader rest
  | '[' :: rest => d.addHeader rest
  | c :: rest =>
    if c = '#' ∨ c = '\n' ∨ c = '\r' then some (d, c :: rest) else d.addPair (c :: rest)

/-- All lines of a text. -/
def addLines : (fuel : Nat) → Document → List Char → Option Document
  | 0, _, _ => none
  | fuel + 1, d, cs =>
    if cs.isEmpty then some d
    else do
      let (d, rest) ← d.addLine cs
      addLines fuel d (← lineEnd? rest)

end Document

/-- A text without the byte order mark it starts with. -/
def dropMark : List Char → List Char
  | '\uFEFF' :: cs => cs
  | cs => cs

/-- **Reading a document.** The value of its root table; `none` when the text is not TOML. -/
def read? (text : String) : Option Json := do
  let cs := dropMark text.toList
  let d ← Document.addLines (cs.length + 1) {} cs
  return d.root.toJson

end PropDocs.Toml
