import PropDocs.Json.Reader

/-!
# Blanks and strings in TOML

The smallest pieces of a TOML text: blanks, line ends, comments, and the four forms of strings.  Each
reader takes the characters that are left and returns what it read together with the characters
behind it.
-/

namespace PropDocs.Toml

/-! ### Blanks, lines and comments -/

/-- A blank inside a line. -/
def isSpace (c : Char) : Bool :=
  c == ' ' || c == '\t'

/-- Drops the blanks in front. -/
def skipSpace (cs : List Char) : List Char :=
  cs.dropWhile isSpace

/-- A character that may stand in comments and strings: a tab, or no control character. -/
def isPlain (c : Char) : Bool :=
  c == '\t' || (0x20 ≤ c.toNat && c.toNat != 0x7f)

/-- What follows a line break. -/
def afterBreak? : List Char → Option (List Char)
  | '\n' :: rest => some rest
  | '\r' :: '\n' :: rest => some rest
  | _ => none

/-- **End of a line.** Blanks, a comment if there is one, and a line break or the end of the text;
the result is what follows. -/
def lineEnd? (cs : List Char) : Option (List Char) :=
  let rest :=
    match skipSpace cs with
    | '#' :: rest => rest.dropWhile isPlain
    | rest => rest
  if rest.isEmpty then some [] else afterBreak? rest

/-- **Filler** between the items of an array: blanks, line breaks and comments that end with their
line. -/
def skipFiller (inComment : Bool) : List Char → Option (List Char)
  | [] => if inComment then none else some []
  | '\r' :: '\n' :: cs => skipFiller false cs
  | c :: cs =>
    if c = '\n' then skipFiller false cs
    else if inComment then if isPlain c then skipFiller true cs else none
    else if c = '#' then skipFiller true cs
    else if isSpace c then skipFiller false cs
    else some (c :: cs)

/-! ### Strings -/

/-- The character with a code point, when there is one. -/
def scalar? (n : Nat) : Option Char :=
  if n.isValidChar then some (Char.ofNat n) else none

/-- The character of a one-letter escape. -/
def simpleEscape? (c : Char) : Option Char :=
  match c with
  | 'b' => some '\x08'
  | 't' => some '\t'
  | 'n' => some '\n'
  | 'f' => some '\x0c'
  | 'r' => some '\r'
  | '"' => some '"'
  | '\\' => some '\\'
  | _ => none

/-- The character of four hexadecimal digits. -/
def shortEscape? (a b c d : Char) : Option Char := do
  scalar? (← Json.hexUnit? a b c d)

/-- The character of eight hexadecimal digits. -/
def longEscape? (a b c d e f g h : Char) : Option Char := do
  scalar? ((← Json.hexUnit? a b c d) * 0x10000 + (← Json.hexUnit? e f g h))

/-- **Basic string** behind its opening quote. -/
def basicBody : List Char → Option (List Char × List Char)
  | [] => none
  | '"' :: rest => some ([], rest)
  | '\\' :: 'u' :: a :: b :: c :: d :: rest => do
    let ch ← shortEscape? a b c d
    let (body, rest) ← basicBody rest
    return (ch :: body, rest)
  | '\\' :: 'U' :: a :: b :: c :: d :: e :: f :: g :: h :: rest => do
    let ch ← longEscape? a b c d e f g h
    let (body, rest) ← basicBody rest
    return (ch :: body, rest)
  | '\\' :: e :: rest => do
    let ch ← simpleEscape? e
    let (body, rest) ← basicBody rest
    return (ch :: body, rest)
  | ch :: rest =>
    if isPlain ch ∧ ch ≠ '\\' then do
      let (body, rest) ← basicBody rest
      return (ch :: body, rest)
    else none

/-- Up to two quotes directly in front of the closing quotes belong to the string: the quotes that
follow the first three of a run, and what follows them. -/
def closingQuotes (quote : Char) (rest : List Char) : List Char × List Char :=
  match rest with
  | a :: b :: more =>
    if a = quote then
      if b = quote then ([a, b], more) else ([a], b :: more)
    else ([], a :: b :: more)
  | [a] => if a = quote then ([a], []) else ([], [a])
  | [] => ([], [])

/-- A backslash in front of these characters ends its line: blanks, then a line break. -/
def endsLine (cs : List Char) : Bool :=
  (afterBreak? (skipSpace cs)).isSome

/-- **Multi-line basic string** behind its opening quotes.  While `folding`, blanks and line breaks
are dropped: that follows a backslash at the end of a line. -/
def multiLineBody (folding : Bool) : List Char → Option (List Char × List Char)
  | [] => none
  | '"' :: '"' :: '"' :: rest => some (closingQuotes '"' rest)
  | '\r' :: '\n' :: rest => do
    let (body, rest) ← multiLineBody folding rest
    return (if folding then body else '\n' :: body, rest)
  | '\\' :: 'u' :: a :: b :: c :: d :: rest => do
    let ch ← shortEscape? a b c d
    let (body, rest) ← multiLineBody false rest
    return (ch :: body, rest)
  | '\\' :: 'U' :: a :: b :: c :: d :: e :: f :: g :: h :: rest => do
    let ch ← longEscape? a b c d e f g h
    let (body, rest) ← multiLineBody false rest
    return (ch :: body, rest)
  | '\\' :: e :: rest =>
    match simpleEscape? e with
    | some ch => do
      let (body, rest) ← multiLineBody false rest
      return (ch :: body, rest)
    | none => if endsLine (e :: rest) then multiLineBody true (e :: rest) else none
  | ch :: rest =>
    if folding && (isSpace ch || ch == '\n') then multiLineBody true rest
    else if (isPlain ch && ch != '\\') || ch == '\n' then do
      let (body, rest) ← multiLineBody false rest
      return (ch :: body, rest)
    else none

/-- The apostrophe, which delimits literal strings. -/
def apostrophe : Char := '\x27'

/-- **Literal string** behind its opening apostrophe. -/
def literalBody (cs : List Char) : Option (List Char × List Char) :=
  let isBody := fun c => isPlain c && c != apostrophe
  match cs.dropWhile isBody with
  | c :: rest => if c = apostrophe then some (cs.takeWhile isBody, rest) else none
  | [] => none

/-- **Multi-line literal string** behind its opening apostrophes. -/
def multiLineLiteralBody : List Char → Option (List Char × List Char)
  | [] => none
  | '\x27' :: '\x27' :: '\x27' :: rest => some (closingQuotes apostrophe rest)
  | '\r' :: '\n' :: rest => do
    let (body, rest) ← multiLineLiteralBody rest
    return ('\n' :: body, rest)
  | c :: rest =>
    if isPlain c || c == '\n' then do
      let (body, rest) ← multiLineLiteralBody rest
      return (c :: body, rest)
    else none

/-- A line break directly behind opening quotes is not part of a string. -/
def dropFirstBreak (cs : List Char) : List Char :=
  (afterBreak? cs).getD cs

/-- **String** on one line, in quotes or apostrophes. -/
def readSingleLine : List Char → Option (List Char × List Char)
  | '"' :: rest => basicBody rest
  | '\x27' :: rest => literalBody rest
  | _ => none

/-- **String** in any of the four forms. -/
def readString (cs : List Char) : Option (List Char × List Char) :=
  match cs with
  | '"' :: '"' :: '"' :: rest => multiLineBody false (dropFirstBreak rest)
  | '\x27' :: '\x27' :: '\x27' :: rest => multiLineLiteralBody (dropFirstBreak rest)
  | _ => readSingleLine cs

end PropDocs.Toml
