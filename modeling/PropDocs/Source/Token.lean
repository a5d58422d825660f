import PropDocs.Number.Decimal
import PropDocs.Text.Blank
import PropDocs.Text.CharClass

/-!
# Tokens of a TypeScript source

Source texts are scanned on demand.  A `Cursor` stands on one token and knows the characters from
the token on and behind it, so that a grammar rule that reads the same characters differently (a
regular expression, a template, markup) can start over from either place.

* `Trivia`: what lies between two tokens.  Skipping it decides which block comment documents the
  token behind it;
* `scanToken`: one token from the characters in front;
* `Cursor.next`: the cursor on the following token.

The characters `<` and `>` are tokens of their own, whatever follows them: type arguments close
with several of them in a row, and the expression grammar joins them to operators.
-/

namespace PropDocs.Source

open Text

/-! ### Tokens -/

/-- **Token.** -/
inductive Token where
  /-- The end of the text. -/
  | eof
  /-- A word: an identifier or a keyword. -/
  | word (text : String)
  /-- A name with a hash in front. -/
  | hashName (text : String)
  | string (value : String)
  | number (value : Double)
  | bigint (digits : String)
  /-- The backtick that opens a template. -/
  | backtick
  | punct (text : String)
  /-- Characters that start no token. -/
  | invalid
  deriving DecidableEq, Repr, Inhabited

/-- Words that can never be identifiers. -/
def reservedWords : List String :=
  ["break", "case", "catch", "class", "const", "continue", "debugger", "default", "delete", "do",
    "else", "export", "extends", "false", "finally", "for", "function", "if", "import", "in",
    "instanceof", "new", "null", "return", "super", "switch", "this", "throw", "true", "try",
    "typeof", "var", "void", "while", "with"]

/-- A word that can never be an identifier. -/
def isReserved (w : String) : Bool :=
  reservedWords.contains w

/-- **Trailing comments.** A comment that follows one of these tokens on the same line belongs to
it, and not to the token behind the comment. -/
def Token.takesTrailing : Token → Bool
  | .punct p => p == ";" || p == "\x7b" || p == "\x7d"
  | .word w => !(isReserved w || w == "let" || w == "yield" || w == "await")
  | .string _ | .number _ | .bigint _ => true
  | _ => false

/-! ### Trivia -/

/-- A line terminator. -/
def isLineBreak (c : Char) : Bool :=
  c == '\n' || c == '\r' || c.toNat == 0x2028 || c.toNat == 0x2029

/-- A blank inside a source text: the blanks of documentation texts except the next-line control,
and the byte order mark. -/
def isSourceBlank (c : Char) : Bool :=
  (isBlank c && c.toNat != 0x85) || c.toNat == 0xfeff

/-- **Trivia** skipped so far: whether there was a line break, the text of the last documentation
comment that leads the next token, and one more that has just ended and may still turn out to
trail a semicolon. -/
structure Trivia where
  newline : Bool
  doc : Option String := none
  pending : Option String := none

namespace Trivia

/-- The pending comment leads the next token. -/
def settle (t : Trivia) : Trivia :=
  { t with doc := t.pending.orElse fun _ => t.doc, pending := none }

/-- The next token starts with the given character.  A comment directly in front of a semicolon on
the same line trails. -/
def close (t : Trivia) (first : Option Char) : Trivia :=
  if first = some ';' ∧ ¬ t.newline then { t with pending := none } else t.settle

end Trivia

/-- **Mode** of the trivia scanner: between tokens, inside a line comment, or inside a block
comment.  For a block comment: whether it leads the next token, its characters so far in reverse,
and what follows from them on line breaks. -/
inductive TriviaMode where
  | between
  | line
  | block (leads : Bool) (text : List Char) (newline : Bool)

/-- The trivia behind a block comment with the given reversed text.  Only a comment that starts
with two stars documents anything. -/
def Trivia.addBlock (t : Trivia) (leads : Bool) (text : List Char) (newline : Bool) : Trivia :=
  let body := text.reverse
  let t := t.settle
  let isDoc := body.head? == some '*'
  { t with
    newline := t.newline || newline
    pending := if leads && isDoc then some (String.ofList body) else none }

/-- **Skipping trivia.** `trails` says whether comments on the line of the token before belong to
that token.  The result is `none` when a block comment is not closed. -/
def skipTrivia (trails : Bool) :
    TriviaMode → Trivia → List Char → Option (Trivia × List Char)
  | .between, t, [] => some (t.close none, [])
  | .line, t, [] => some (t.close none, [])
  | .block _ _ _, _, [] => none
  | .between, t, '/' :: '/' :: cs => skipTrivia trails .line t.settle cs
  | .between, t, '/' :: '*' :: cs => skipTrivia trails (.block (t.newline || !trails) [] false) t cs
  | .between, t, c :: cs =>
    if isLineBreak c then skipTrivia trails .between { t with newline := true } cs
    else if isSourceBlank c then skipTrivia trails .between t cs
    else some (t.close (some c), c :: cs)
  | .line, t, c :: cs =>
    if isLineBreak c then skipTrivia trails .between { t with newline := true } cs
    else skipTrivia trails .line t cs
  | .block leads text newline, t, '*' :: '/' :: cs =>
    skipTrivia trails .between (t.addBlock leads text newline) cs
  | .block leads text newline, t, c :: cs =>
    skipTrivia trails (.block leads (c :: text) (newline || isLineBreak c)) t cs

/-! ### Words -/

/-- The number spelled by digits in a base; characters that are no digits are left out. -/
def ofDigits (base : Nat) (cs : List Char) : Nat :=
  cs.foldl (fun n c => match Decimal.digitValue? c with | some d => base * n + d | none => n) 0

/-- The characters up to a closing brace, and what follows the brace. -/
def spanBrace (cs : List Char) : List Char × List Char :=
  (cs.takeWhile (· != '}'), (cs.dropWhile (· != '}')).drop 1)

/-- **Word.** The characters of a word in front, escapes resolved, and what follows them. -/
def spanWord : (fuel : Nat) → List Char → List Char × List Char
  | 0, cs => ([], cs)
  | fuel + 1, cs =>
    match cs with
    | '\\' :: 'u' :: '{' :: rest =>
      let (hex, rest) := spanBrace rest
      let (w, rest) := spanWord fuel rest
      (Char.ofNat (ofDigits 16 hex) :: w, rest)
    | '\\' :: 'u' :: a :: b :: c :: d :: rest =>
      let (w, rest) := spanWord fuel rest
      (Char.ofNat (ofDigits 16 [a, b, c, d]) :: w, rest)
    | c :: rest =>
      if isNamePart c then
        let (w, rest) := spanWord fuel rest
        (c :: w, rest)
      else ([], cs)
    | [] => ([], [])

/-- A word without escapes, and what follows it. -/
def spanPlainWord (cs : List Char) : List Char × List Char :=
  (cs.takeWhile isNamePart, cs.dropWhile isNamePart)

/-- A word; escapes are looked for only where a plain word ends with a backslash. -/
def readWord (cs : List Char) : List Char × List Char :=
  match spanPlainWord cs with
  | (w, '\\' :: rest) =>
    let (w', rest) := spanWord (rest.length + 1) ('\\' :: rest)
    (w ++ w', rest)
  | r => r

/-! ### Strings -/

/-- **Escapes.** The code units spelled by what follows a backslash, and the characters behind
it. -/
def readEscape : List Char → Option (List Nat × List Char)
  | [] => none
  | 'n' :: cs => some ([10], cs)
  | 't' :: cs => some ([9], cs)
  | 'r' :: cs => some ([13], cs)
  | 'b' :: cs => some ([8], cs)
  | 'v' :: cs => some ([11], cs)
  | 'f' :: cs => some ([12], cs)
  | 'x' :: a :: b :: cs => do
    let a ← Decimal.digitValue? a
    let b ← Decimal.digitValue? b
    return ([16 * a + b], cs)
  | 'u' :: '{' :: cs =>
    let (hex, rest) := spanBrace cs
    let n := ofDigits 16 hex
    if hex.isEmpty ∨ hex.any (fun c => (Decimal.digitValue? c).isNone) ∨ 0x10ffff < n then none
    else some ([n], rest)
  | 'u' :: a :: b :: c :: d :: cs => do
    let a ← Decimal.digitValue? a
    let b ← Decimal.digitValue? b
    let c ← Decimal.digitValue? c
    let d ← Decimal.digitValue? d
    return ([((a * 16 + b) * 16 + c) * 16 + d], cs)
  | '\r' :: '\n' :: cs => some ([], cs)
  | c :: cs =>
    if isLineBreak c then some ([], cs)
    else if '0' ≤ c ∧ c ≤ '7' then
      let more := (cs.takeWhile fun c => '0' ≤ c ∧ c ≤ '7').take (if c ≤ '3' then 2 else 1)
      some ([ofDigits 8 (c :: more)], cs.drop more.length)
    else some ([c.toNat], cs)

/-- **String body.** The code units up to the closing quote, and the characters behind it.  A line
feed or carriage return ends a string without closing it. -/
def readStringUnits (quote : Char) : (fuel : Nat) → List Char → Option (List Nat × List Char)
  | 0, _ => none
  | _, [] => none
  | fuel + 1, c :: cs =>
    if c = quote then some ([], cs)
    else if c = '\n' ∨ c = '\r' then none
    else if c = '\\' then do
      let (units, rest) ← readEscape cs
      let (more, rest) ← readStringUnits quote fuel rest
      return (units ++ more, rest)
    else do
      let (more, rest) ← readStringUnits quote fuel cs
      return (c.toNat :: more, rest)

/-- The replacement for text that cannot be decoded. -/
def replacement : Char := Char.ofNat 0xfffd

/-- **Text of code units.** A surrogate pair is one character; a surrogate that stands alone becomes
three replacement characters, one for each byte it would take. -/
def unitsToText : List Nat → List Char
  | [] => []
  | [n] =>
    if 0xd800 ≤ n ∧ n < 0xe000 then [replacement, replacement, replacement] else [Char.ofNat n]
  | n :: m :: rest =>
    if 0xd800 ≤ n ∧ n < 0xdc00 ∧ 0xdc00 ≤ m ∧ m < 0xe000 then
      Char.ofNat (0x10000 + (n - 0xd800) * 0x400 + (m - 0xdc00)) :: unitsToText rest
    else if 0xd800 ≤ n ∧ n < 0xe000 then
      replacement :: replacement :: replacement :: unitsToText (m :: rest)
    else Char.ofNat n :: unitsToText (m :: rest)

/-! ### Numbers -/

/-- A digit of a number or a separator between digits. -/
def isDigitOrMark (c : Char) : Bool :=
  c.isDigit || c == '_'

/-- The power of ten behind a number, and what follows it. -/
def spanExponent (cs : List Char) : Int × List Char :=
  match cs with
  | e :: rest =>
    if e = 'e' ∨ e = 'E' then
      let (negative, ds) :=
        match rest with
        | '-' :: ds => (true, ds)
        | '+' :: ds => (false, ds)
        | ds => (false, ds)
      let digits := ds.takeWhile isDigitOrMark
      if digits.isEmpty then (0, cs)
      else
        let n : Int := ofDigits 10 digits
        (if negative then -n else n, ds.dropWhile isDigitOrMark)
    else (0, cs)
  | [] => (0, [])

/-- A whole number in a base other than ten, the characters of its digits in front. -/
def readRadix (base : Nat) (cs : List Char) : Token × List Char :=
  let ok := fun c => c == '_' || (match Decimal.digitValue? c with | some d => d < base | none => false)
  let digits := cs.takeWhile ok
  let n := ofDigits base digits
  match cs.dropWhile ok with
  | 'n' :: rest => (.bigint (toString n), rest)
  | rest => if digits.isEmpty then (.invalid, rest) else (.number (Double.ofNat n), rest)

/-- A decimal number. -/
def readDecimal (cs : List Char) : Token × List Char :=
  let whole := (cs.takeWhile isDigitOrMark).filter (· != '_')
  match cs.dropWhile isDigitOrMark with
  | 'n' :: rest => (.bigint (toString (ofDigits 10 whole)), rest)
  | rest =>
    let (fraction, rest) :=
      match rest with
      | '.' :: rest =>
        ((rest.takeWhile isDigitOrMark).filter (· != '_'), rest.dropWhile isDigitOrMark)
      | rest => ([], rest)
    let (exponent, rest) := spanExponent rest
    (.number (Decimal.ofPieces false whole fraction exponent).toDouble, rest)

/-- The digits of a number with a leading zero, when all of them are octal. -/
def octalDigits? (cs : List Char) : Option (List Char) :=
  let digits := cs.takeWhile isDigitOrMark
  match digits with
  | '0' :: _ :: _ => if digits.all fun c => c == '_' || c < '8' then some digits else none
  | _ => none

/-- A number in base ten, or in base eight when it has a leading zero and octal digits only. -/
def readPlain (cs : List Char) : Token × List Char :=
  match octalDigits? cs with
  | some digits => (.number (Double.ofNat (ofDigits 8 digits)), cs.dropWhile isDigitOrMark)
  | none => readDecimal cs

/-- **Number.** A number may not run into a word. -/
def readNumber (cs : List Char) : Token × List Char :=
  let (token, rest) :=
    match cs with
    | '0' :: 'x' :: cs | '0' :: 'X' :: cs => readRadix 16 cs
    | '0' :: 'o' :: cs | '0' :: 'O' :: cs => readRadix 8 cs
    | '0' :: 'b' :: cs | '0' :: 'B' :: cs => readRadix 2 cs
    | cs => readPlain cs
  match rest with
  | c :: _ => if isNamePart c then (.invalid, rest) else (token, rest)
  | [] => (token, rest)

/-! ### Punctuators -/

/-- The punctuators of more than one character, longer ones first. -/
def longPunctuators : List String :=
  ["...", "===", "!==", "**=", "&&=", "||=", "??=", "=>", "==", "!=", "++", "--", "+=", "-=", "*=",
    "/=", "%=", "&=", "|=", "^=", "&&", "||", "??", "**", "?."]

/-- The punctuators of one character. -/
def shortPunctuators : List Char :=
  ['{', '}', '(', ')', '[', ']', ';', ',', '<', '>', '=', '!', '+', '-', '*', '/', '%', '&', '|',
    '^', '~', '?', ':', '.', '@']

/-- A question mark with a dot is no punctuator in front of a digit. -/
def isFraction (p : String) (rest : List Char) : Bool :=
  p == "?." && (match rest with | c :: _ => c.isDigit | [] => false)

/-- **Punctuator.** -/
def readPunctuator (cs : List Char) : Token × List Char :=
  let hit := longPunctuators.findSome? fun p =>
    match afterWord? p.toList cs with
    | some rest => if isFraction p rest then none else some (p, rest)
    | none => none
  match hit with
  | some (p, rest) => (.punct p, rest)
  | none =>
    match cs with
    | c :: rest =>
      if shortPunctuators.contains c then (.punct (String.singleton c), rest) else (.invalid, rest)
    | [] => (.eof, [])

/-- **Token.** The token that starts with the first character, and what follows it. -/
def scanToken (cs : List Char) : Token × List Char :=
  match cs with
  | [] => (.eof, [])
  | c :: rest =>
    if c = '"' ∨ c = '\'' then
      match readStringUnits c (rest.length + 1) rest with
      | some (units, rest) => (.string (String.ofList (unitsToText units)), rest)
      | none => (.invalid, rest)
    else if c = Char.ofNat 0x60 then (.backtick, rest)
    else if c.isDigit then readNumber cs
    else if c = '.' ∧ rest.head?.any Char.isDigit then readNumber cs
    else if c = '#' then
      match readWord rest with
      | ([], rest) => (.invalid, rest)
      | (w, rest) => (.hashName (String.ofList w), rest)
    else if isNameStart c ∨ c = '\\' then
      let (w, rest) := readWord cs
      if w.isEmpty then (.invalid, rest) else (.word (String.ofList w), rest)
    else readPunctuator cs

/-! ### Cursors -/

/-- **Cursor.** A token, whether a line break stands in front of it, the documentation comment that
leads it, and the characters from its start and from its end. -/
structure Cursor where
  token : Token
  newline : Bool
  doc : Option String
  start : List Char
  rest : List Char
  deriving Inhabited

namespace Cursor

/-- The cursor on the first token of some characters; `trails` and `newline` describe what stands
in front of them. -/
def scan (trails newline : Bool) (cs : List Char) : Cursor :=
  match skipTrivia trails .between { newline } cs with
  | none => { token := .invalid, newline, doc := none, start := [], rest := [] }
  | some (t, start) =>
    let (token, rest) := scanToken start
    { token, newline := t.newline, doc := t.doc, start, rest }

/-- The cursor on the following token. -/
def next (c : Cursor) : Cursor :=
  scan c.token.takesTrailing false c.rest

/-- The characters behind a first line that names an interpreter. -/
def afterHashbang : List Char → List Char
  | '#' :: '!' :: cs => cs.dropWhile fun c => !isLineBreak c
  | cs => cs

/-- The cursor on the first token of a text.  The start of a text counts as a line break. -/
def ofText (text : String) : Cursor :=
  scan false true (afterHashbang text.toList)

end Cursor

/-! ### Other readings of the same characters -/

/-- **Regular expression.** The characters behind a regular expression whose opening slash has been
read; inside brackets a slash does not end it. -/
def skipRegex : (inClass escaped : Bool) → List Char → Option (List Char)
  | _, _, [] => none
  | inClass, escaped, c :: cs =>
    if isLineBreak c then none
    else if escaped then skipRegex inClass false cs
    else if c = '\\' then skipRegex inClass true cs
    else if c = '[' then skipRegex true false cs
    else if c = ']' then skipRegex false false cs
    else if c = '/' ∧ ¬ inClass then some (cs.dropWhile isNamePart)
    else skipRegex inClass false cs

/-- **Template chunk.** The raw text up to the next hole or the closing backtick, whether it is a
hole, and the characters behind either mark. -/
def templateChunk : (escaped : Bool) → List Char → Option (List Char × Bool × List Char)
  | _, [] => none
  | escaped, c :: cs =>
    if escaped then (templateChunk false cs).map fun (t, r) => (c :: t, r)
    else if c = Char.ofNat 0x60 then some ([], false, cs)
    else if c = '$' then
      match cs with
      | '{' :: rest => some ([], true, rest)
      | cs => (templateChunk false cs).map fun (t, r) => (c :: t, r)
    else (templateChunk (c == '\\') cs).map fun (t, r) => (c :: t, r)

end PropDocs.Source
