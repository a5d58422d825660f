import PropDocs.Json.Reader

/-!
# The grammar of JSON

What a JSON text is, apart from how it is read.  A text is a row of tokens with gaps between them, and
the tokens denote a value.

* `Token`: a punctuation mark, a string or a bare word, with the characters it is written with;
* `Scalar`: the value of a single token.  `Spells` and `IsNumber` are the grammars of strings and
  numbers;
* `Laid`: a text is laid out as a list of tokens;
* `Denotes`: tokens denote a value, and some are left behind it;
* `Reads`: both together, for a whole text.

There are two dialects.  The strict one has blanks in its gaps and a comma only between neighbours.
The relaxed one also has comments wherever blanks may stand, and may have one comma behind the last
entry of an array or an object.
-/

namespace PropDocs.Json

/-- **Dialect**: JSON as it is, or with comments and trailing commas. -/
inductive Dialect where
  | strict
  | relaxed
  deriving DecidableEq, Repr

/-! ### Tokens -/

/-- **Token.** A string is given by the characters between its quotes, as they are written. -/
inductive Token where
  | openArray
  | closeArray
  | openObject
  | closeObject
  | colon
  | comma
  | string (body : List Char)
  | word (cs : List Char)
  deriving DecidableEq, Repr

namespace Token

/-- The characters a token is written with. -/
def chars : Token → List Char
  | .openArray => ['[']
  | .closeArray => [']']
  | .openObject => ['\x7b']
  | .closeObject => ['\x7d']
  | .colon => [':']
  | .comma => [',']
  | .string body => '"' :: (body ++ ['"'])
  | .word cs => cs

/-- The token closes an array or an object. -/
def closes : Token → Bool
  | .closeArray | .closeObject => true
  | _ => false

/-- The token opens an array or an object. -/
def opens : Token → Bool
  | .openArray | .openObject => true
  | _ => false

/-- The token is a value of its own. -/
def isScalar : Token → Bool
  | .string _ | .word _ => true
  | _ => false

/-- A string as it is written, without its quotes. -/
def literal? : Token → Option (List Char)
  | .string body => some body
  | _ => none

end Token

/-! ### Values of single tokens -/

/-- **Strings.** The characters between the quotes spell code units: a character that needs no escape
spells itself, a letter behind a backslash stands for a character, and four hexadecimal digits
for a code unit. -/
inductive Spells : List Char → List Nat → Prop
  | nil : Spells [] []
  | plain {c : Char} {body : List Char} {units : List Nat} :
      c ≠ '"' → c ≠ '\\' → 0x20 ≤ c.toNat → Spells body units →
      Spells (c :: body) (c.toNat :: units)
  | escape {e c : Char} {body : List Char} {units : List Nat} :
      simpleEscape? e = some c → Spells body units →
      Spells ('\\' :: e :: body) (c.toNat :: units)
  | code {a b c d : Char} {unit : Nat} {body : List Char} {units : List Nat} :
      hexUnit? a b c d = some unit → Spells body units →
      Spells ('\\' :: 'u' :: a :: b :: c :: d :: body) (unit :: units)

/-- One digit or more. -/
def IsDigits (ds : List Char) : Prop :=
  ds ≠ [] ∧ ∀ c ∈ ds, c.isDigit = true

/-- The whole part of a number: a zero, or digits that do not start with one. -/
def IsWhole (ds : List Char) : Prop :=
  ds = ['0'] ∨ IsDigits ds ∧ ds.head? ≠ some '0'

/-- The fraction part of a number, with its digits. -/
inductive IsFraction : List Char → List Char → Prop
  | absent : IsFraction [] []
  | present {ds : List Char} : IsDigits ds → IsFraction ('.' :: ds) ds

/-- The power of ten of a number. -/
inductive IsExponent : List Char → Int → Prop
  | absent : IsExponent [] 0
  | bare {e : Char} {ds : List Char} : e = 'e' ∨ e = 'E' → IsDigits ds →
      IsExponent (e :: ds) (Decimal.ofDigits ds)
  | plus {e : Char} {ds : List Char} : e = 'e' ∨ e = 'E' → IsDigits ds →
      IsExponent (e :: '+' :: ds) (Decimal.ofDigits ds)
  | minus {e : Char} {ds : List Char} : e = 'e' ∨ e = 'E' → IsDigits ds →
      IsExponent (e :: '-' :: ds) (-(Decimal.ofDigits ds : Int))

/-- **Numbers**: a sign, a whole part, a fraction part and a power of ten. -/
inductive IsNumber : List Char → Decimal → Prop
  | mk (negative : Bool) {sign whole fraction ds exponent : List Char} {n : Int} :
      sign = (if negative then ['-'] else []) → IsWhole whole → IsFraction fraction ds →
      IsExponent exponent n →
      IsNumber (sign ++ (whole ++ (fraction ++ exponent)))
        (Decimal.ofPieces negative whole ds n)

/-- **Scalars.** The value of a token that is one. -/
inductive Scalar : Token → Json → Prop
  | wordNull : Scalar (.word ['n', 'u', 'l', 'l']) .null
  | wordTrue : Scalar (.word ['t', 'r', 'u', 'e']) (.bool true)
  | wordFalse : Scalar (.word ['f', 'a', 'l', 's', 'e']) (.bool false)
  | number {cs : List Char} {n : Decimal} : IsNumber cs n → Scalar (.word cs) (.number n)
  | string {body : List Char} {units : List Nat} : Spells body units →
      Scalar (.string body) (.string ((joinSurrogates? units).map String.ofList))

/-- The characters that bare words and numbers are made of. -/
def isWordChar (c : Char) : Bool :=
  c.isAlphanum || c == '+' || c == '-' || c == '.'

/-- The characters of a token are those of a mark or of a scalar. -/
def Token.WellFormed (tok : Token) : Prop :=
  tok.isScalar = true → ∃ v, Scalar tok v

/-! ### Texts -/

/-- **Layout.** The text is the tokens, one after another, with gaps in front of them and at the end.
A line comment runs to the line feed, or to the end of the text, and a block comment to the next star
with a slash behind it. -/
inductive Laid (d : Dialect) : List Char → List Token → Prop
  | nil : Laid d [] []
  | space {c : Char} {t : List Char} {toks : List Token} :
      isSpace c = true → Laid d t toks → Laid d (c :: t) toks
  | lineComment {body t : List Char} {toks : List Token} :
      d = .relaxed → '\n' ∉ body → Laid d t toks →
      Laid d ('/' :: '/' :: (body ++ '\n' :: t)) toks
  | lastComment {body : List Char} :
      d = .relaxed → '\n' ∉ body → Laid d ('/' :: '/' :: body) []
  | blockComment {body t : List Char} {toks : List Token} :
      d = .relaxed → ¬ ['*', '/'] <:+: body → Laid d t toks →
      Laid d ('/' :: '*' :: (body ++ '*' :: '/' :: t)) toks
  | token {tok : Token} {t : List Char} {toks : List Token} :
      tok.WellFormed → Laid d t toks → Laid d (tok.chars ++ t) (tok :: toks)

/-! ### Values -/

/-- What a row of tokens can be: a value, the items of an array with its closing bracket, or the
fields of an object with its closing brace. -/
inductive Phrase where
  | value (v : Json)
  | items (vs : List Json)
  | fields (fs : List (Option String × Json))

/-- **Denotation.** The tokens in front are the phrase, and the last argument is what follows it. -/
inductive Denotes (d : Dialect) : List Token → Phrase → List Token → Prop
  | scalar {tok : Token} {v : Json} {rest : List Token} :
      Scalar tok v → Denotes d (tok :: rest) (.value v) rest
  | emptyArray {rest : List Token} :
      Denotes d (.openArray :: .closeArray :: rest) (.value (.array [])) rest
  | array {toks rest : List Token} {vs : List Json} :
      Denotes d toks (.items vs) rest → Denotes d (.openArray :: toks) (.value (.array vs)) rest
  | emptyObject {rest : List Token} :
      Denotes d (.openObject :: .closeObject :: rest) (.value (.object [])) rest
  | object {toks rest : List Token} {fs : List (Option String × Json)} :
      Denotes d toks (.fields fs) rest → Denotes d (.openObject :: toks) (.value (.object fs)) rest
  | lastItem {toks rest : List Token} {v : Json} :
      Denotes d toks (.value v) (.closeArray :: rest) → Denotes d toks (.items [v]) rest
  | trailingItem {toks rest : List Token} {v : Json} :
      d = .relaxed → Denotes d toks (.value v) (.comma :: .closeArray :: rest) →
      Denotes d toks (.items [v]) rest
  | moreItems {toks toks' rest : List Token} {v : Json} {vs : List Json} :
      Denotes d toks (.value v) (.comma :: toks') → Denotes d toks' (.items vs) rest →
      Denotes d toks (.items (v :: vs)) rest
  | lastField {tok : Token} {toks rest : List Token} {name : Option String} {v : Json} :
      Scalar tok (.string name) → Denotes d toks (.value v) (.closeObject :: rest) →
      Denotes d (tok :: .colon :: toks) (.fields [(name, v)]) rest
  | trailingField {tok : Token} {toks rest : List Token} {name : Option String} {v : Json} :
      d = .relaxed → Scalar tok (.string name) →
      Denotes d toks (.value v) (.comma :: .closeObject :: rest) →
      Denotes d (tok :: .colon :: toks) (.fields [(name, v)]) rest
  | moreFields {tok : Token} {toks toks' rest : List Token} {name : Option String} {v : Json}
      {fs : List (Option String × Json)} :
      Scalar tok (.string name) → Denotes d toks (.value v) (.comma :: toks') →
      Denotes d toks' (.fields fs) rest →
      Denotes d (tok :: .colon :: toks) (.fields ((name, v) :: fs)) rest

/-- **Documents.** The text is laid out as the tokens, and they denote the value. -/
def Reads (d : Dialect) (text : String) (toks : List Token) (v : Json) : Prop :=
  Laid d text.toList toks ∧ Denotes d toks (.value v) []

/-- The text is a document of the dialect and denotes the value. -/
def IsDocument (d : Dialect) (text : String) (v : Json) : Prop :=
  ∃ toks, Reads d text toks v

end PropDocs.Json
